import QotStack.Registry.Teardown

/-!
# QotStack — what a creation that fails leaves behind

`qot_timeline_create` takes memory for a record, and `qot_timeline_chdev_register` memory for the
device, an index, a device node and a POSIX clock; then the record goes into the registry. Each step
can fail, and the code unwinds through labels, two of which are wrong:

* no label destroys the device node, so it stays when the clock cannot be registered;
* unregistering the clock runs its release function, `qot_timeline_chdev_delete`, which walks lists
  that are only initialised later: when the sysfs files cannot be made, the kernel faults. With a
  file already open on the device nothing is released there, and the labels after it free what the
  file points to.

The labels of `qot_timeline_create` are right as long as nobody has opened the new device.
`timeline_creation_iff` says that this is all.

The registry is looked up and inserted into under two locks, so that a name found free may be taken
when it is inserted: `looked` is the registry at the look-up.
-/

namespace Qot

open OrderedInsert

/-! ## Resources -/

inductive Resource where
  | memory (addr : Nat)
  | index (index : Int32)
  | device (index : Int32)
  | clock (addr : Nat)
  deriving DecidableEq, Repr

inductive ResourceEvent where
  | acquired (r : Resource)
  | released (r : Resource)
  deriving DecidableEq, Repr

/-- The sets a creation adds to, and what it has acquired and released, newest first. The index map
leads to the address of a device; a clock is the one in the device at its address. -/
structure KernelSets where
  registry : List TimelinePriv
  map : List (Int32 × Nat)
  devices : List Int32
  clocks : List Nat
  log : List ResourceEvent
  deriving DecidableEq

namespace KernelSets

def note (s : KernelSets) (e : ResourceEvent) : KernelSets := { s with log := e :: s.log }

def kzalloc (s : KernelSets) (addr : Nat) : KernelSets := s.note (.acquired (.memory addr))

def kfree (s : KernelSets) (addr : Nat) : KernelSets := s.note (.released (.memory addr))

def idrAlloc (s : KernelSets) (index : Int32) (addr : Nat) : KernelSets :=
  { s with map := (index, addr) :: s.map }.note (.acquired (.index index))

def idrRemove (s : KernelSets) (index : Int32) : KernelSets :=
  { s with map := s.map.eraseP fun e => e.1 = index }.note (.released (.index index))

def idrFind (s : KernelSets) (index : Int32) : Option Nat :=
  (s.map.find? fun e => e.1 = index).map (·.2)

def deviceCreate (s : KernelSets) (index : Int32) : KernelSets :=
  { s with devices := index :: s.devices }.note (.acquired (.device index))

def deviceDestroy (s : KernelSets) (index : Int32) : KernelSets :=
  { s with devices := s.devices.erase index }.note (.released (.device index))

def clockRegister (s : KernelSets) (addr : Nat) : KernelSets :=
  { s with clocks := addr :: s.clocks }.note (.acquired (.clock addr))

end KernelSets

/-! ## The calls -/

/-- What happens during a creation: the memory `kzalloc` returns for the record and for the device,
the index `idr_alloc` draws, whether the kernel can make the device node, the clock and the sysfs
files; and what others have done with the new device by the time the call fails, the files they have
open and whether one of them is bound. -/
structure CreationEnv where
  privAddr : Option Nat
  implAddr : Option Nat
  idrAlloc : Int32
  deviceCreate : Bool
  posixClockRegister : Bool
  sysfsInit : Bool
  files : Nat
  bound : Bool
  deriving DecidableEq, Repr

namespace KernelSets

/-- The release function of the clock. It walks the lists of bindings; before they are initialised
that is a fault. -/
def qotTimelineChdevDelete (s : KernelSets) (index : Int32) (addr : Nat) (listsReady : Bool) :
    Option KernelSets :=
  if listsReady then some ((s.idrRemove index).kfree addr) else none

/-- Calls the release function if no file is open. -/
def posixClockUnregister (s : KernelSets) (index : Int32) (addr files : Nat) (listsReady : Bool) :
    Option KernelSets :=
  let s := { s with clocks := s.clocks.erase addr }.note (.released (.clock addr))
  if files = 0 then s.qotTimelineChdevDelete index addr listsReady else some s

def failIdasimpleget (s : KernelSets) (addr : Nat) : KernelSets := s.kfree addr

def failPosixclock (s : KernelSets) (index : Int32) (addr : Nat) : KernelSets :=
  (s.idrRemove index).failIdasimpleget addr

def failSysfs (s : KernelSets) (index : Int32) (addr files : Nat) : Option KernelSets :=
  (s.posixClockUnregister index addr files false).map fun s => s.failPosixclock index addr

/-- Create the device and return its index, negative on failure. -/
def qotTimelineChdevRegister (s : KernelSets) (env : CreationEnv) : Option (Int32 × KernelSets) :=
  match env.implAddr with
  | none => some (-1, s)
  | some addr =>
    let s := s.kzalloc addr
    if env.idrAlloc < 0 then some (-1, s.failIdasimpleget addr)
    else
      let s := s.idrAlloc env.idrAlloc addr
      -- a node of that name may be left from an earlier failure; the result is not checked
      let dev := env.deviceCreate = true ∧ env.idrAlloc ∉ s.devices
      let s := if dev then s.deviceCreate env.idrAlloc else s
      if env.posixClockRegister = false then some (-1, s.failPosixclock env.idrAlloc addr)
      else
        let s := s.clockRegister addr
        -- the sysfs files of an error pointer
        if ¬ dev then none
        else if env.sysfsInit = false then
          (s.failSysfs env.idrAlloc addr env.files).map fun s => (-1, s)
        else some (env.idrAlloc, s)

/-- `qot_timeline_chdev_unregister`, called without the administrator's flag. -/
def qotTimelineChdevUnregister (s : KernelSets) (index : Int32) (env : CreationEnv) :
    Option KernelSets :=
  match s.idrFind index with
  | none => some s
  | some addr =>
    if env.bound then some s
    else (s.deviceDestroy index).posixClockUnregister index addr env.files true

def qotTimelineInsert (s : KernelSets) (timeline : TimelinePriv) : Option KernelSets :=
  (insertByName s.registry timeline).map fun registry => { s with registry := registry }

/-- `qot_timeline_create` from where the registration has returned `index`. -/
def insertRegistered (s : KernelSets) (index : Int32) (timeline : QotTimeline) (env : CreationEnv)
    (priv : Nat) : Option (Int × KernelSets) :=
  if index < 0 then some (1, s.kfree priv)
  else
    match s.qotTimelineInsert ⟨priv, { timeline with index := index }⟩ with
    | none => (s.qotTimelineChdevUnregister index env).map fun s => (1, s.kfree priv)
    | some s => some (0, s)

/-- Create a new timeline: the return value and the sets afterwards. -/
def qotTimelineCreate (looked : List TimelinePriv) (s : KernelSets) (timeline : QotTimeline)
    (env : CreationEnv) : Option (Int × KernelSets) :=
  match looked.find? fun r => r.info.name = timeline.name with
  | some _ => some (-1, s)
  | none =>
    match env.privAddr with
    | none => some (1, s)
    | some priv =>
      ((s.kzalloc priv).qotTimelineChdevRegister env).bind fun r =>
        r.2.insertRegistered r.1 timeline env priv

end KernelSets

/-! ## All or nothing -/

/-- The four sets are as before, and what was acquired since has been released, each as often. -/
structure NothingDone (s s' : KernelSets) : Prop where
  registry : s'.registry = s.registry
  map : s'.map = s.map
  devices : s'.devices = s.devices
  clocks : s'.clocks = s.clocks
  balanced : ∃ since, s'.log = since ++ s.log
    ∧ ∀ r, since.count (.released r) = since.count (.acquired r)

/-- The call returns, and if it reports a failure nothing is done. -/
def AllOrNothing (looked : List TimelinePriv) (s : KernelSets) (timeline : QotTimeline)
    (env : CreationEnv) : Prop :=
  ∃ r s', s.qotTimelineCreate looked timeline env = some (r, s') ∧ (r ≠ 0 → NothingDone s s')

/-- The condition on a call that gets as far as the device node: if that cannot be made, the clock
cannot be registered either; if it can, so can the clock and the sysfs files, and nobody touches the
device of a timeline whose name is taken. -/
def CreationClean (looked : List TimelinePriv) (s : KernelSets) (timeline : QotTimeline)
    (env : CreationEnv) : Prop :=
  (∀ r ∈ looked, r.info.name ≠ timeline.name) → env.privAddr ≠ none → env.implAddr ≠ none →
    ¬ env.idrAlloc < 0 →
    if env.deviceCreate = true ∧ env.idrAlloc ∉ s.devices then
      env.posixClockRegister = true ∧ env.sysfsInit = true
        ∧ ((∃ r ∈ s.registry, r.info.name = timeline.name) → env.files = 0 ∧ env.bound = false)
    else env.posixClockRegister = false

/-! ## Undoing one step -/

theorem NothingDone.refl (s : KernelSets) : NothingDone s s :=
  ⟨rfl, rfl, rfl, rfl, [], rfl, fun _ => rfl⟩

/-- What is acquired before and released after leaves the log balanced. -/
theorem balanced_around {log log' : List ResourceEvent} {r : Resource}
    (h : ∃ since, log' = since ++ .acquired r :: log
      ∧ ∀ r, since.count (.released r) = since.count (.acquired r)) :
    ∃ since, .released r :: log' = since ++ log
      ∧ ∀ r, since.count (.released r) = since.count (.acquired r) := by
  obtain ⟨since, rfl, hcount⟩ := h
  refine ⟨.released r :: (since ++ [.acquired r]), by simp, fun q => ?_⟩
  simp only [List.count_cons, List.count_append, List.count_nil, hcount q, beq_iff_eq, reduceCtorEq,
    ResourceEvent.acquired.injEq, ResourceEvent.released.injEq, if_false]
  omega

variable {s s' : KernelSets}

theorem NothingDone.kfree {addr : Nat} (h : NothingDone (s.kzalloc addr) s') :
    NothingDone s (s'.kfree addr) :=
  ⟨h.registry, h.map, h.devices, h.clocks, balanced_around h.balanced⟩

theorem NothingDone.idrRemove {index : Int32} {addr : Nat}
    (h : NothingDone (s.idrAlloc index addr) s') : NothingDone s (s'.idrRemove index) where
  registry := h.registry
  map := by
    have hmap : s'.map = (index, addr) :: s.map := h.map
    simp [KernelSets.idrRemove, KernelSets.note, hmap]
  devices := h.devices
  clocks := h.clocks
  balanced := balanced_around h.balanced

/-- The device node is destroyed before the clock that was registered after it. -/
theorem nothingDone_deviceClock (s : KernelSets) (index : Int32) (addr : Nat) :
    NothingDone s
      ({ (((s.deviceCreate index).clockRegister addr).deviceDestroy index) with
        clocks := ((s.deviceCreate index).clockRegister addr).clocks.erase addr }.note
          (.released (.clock addr))) where
  registry := rfl
  map := rfl
  devices := by simp [KernelSets.deviceCreate, KernelSets.clockRegister, KernelSets.deviceDestroy,
    KernelSets.note]
  clocks := by simp [KernelSets.deviceCreate, KernelSets.clockRegister, KernelSets.note]
  balanced := by
    refine ⟨[.released (.clock addr), .released (.device index), .acquired (.clock addr),
      .acquired (.device index)], rfl, fun r => ?_⟩
    simp only [List.count_cons, List.count_nil, beq_iff_eq, reduceCtorEq,
      ResourceEvent.acquired.injEq, ResourceEvent.released.injEq, if_false]
    omega

/-! ## The registration -/

/-- The sets when the clock has been registered. -/
def KernelSets.withDevice (s : KernelSets) (index : Int32) (addr : Nat) : KernelSets :=
  ((((s.kzalloc addr).idrAlloc index addr).deviceCreate index).clockRegister addr)

section Registration

variable {s : KernelSets} {env : CreationEnv} {addr : Nat} (haddr : env.implAddr = some addr)
  (hindex : ¬ env.idrAlloc < 0)

include haddr

theorem register_no_index (hneg : env.idrAlloc < 0) :
    ∃ s', s.qotTimelineChdevRegister env = some (-1, s') ∧ NothingDone s s' := by
  refine ⟨(s.kzalloc addr).kfree addr, ?_, (NothingDone.refl _).kfree⟩
  simp only [KernelSets.qotTimelineChdevRegister, haddr, if_pos hneg]
  rfl

include hindex

/-- Without a device node there are two ways: a failure that leaves nothing, or a fault. -/
theorem register_no_device (hdev : ¬ (env.deviceCreate = true ∧ env.idrAlloc ∉ s.devices)) :
    (env.posixClockRegister = true ∧ s.qotTimelineChdevRegister env = none)
      ∨ (env.posixClockRegister = false
        ∧ ∃ s', s.qotTimelineChdevRegister env = some (-1, s') ∧ NothingDone s s') := by
  have hdev' : ¬ (env.deviceCreate = true
      ∧ env.idrAlloc ∉ ((s.kzalloc addr).idrAlloc env.idrAlloc addr).devices) := hdev
  cases hclock : env.posixClockRegister with
  | true =>
    refine Or.inl ⟨rfl, ?_⟩
    simp [KernelSets.qotTimelineChdevRegister, haddr, hindex, hdev', hclock]
  | false =>
    refine Or.inr ⟨rfl, (((s.kzalloc addr).idrAlloc env.idrAlloc addr).idrRemove env.idrAlloc).kfree
      addr, ?_, (NothingDone.refl _).idrRemove.kfree⟩
    simp only [KernelSets.qotTimelineChdevRegister, haddr, if_neg hindex, if_neg hdev', hclock,
      if_true]
    rfl

/-- With a device node, every failure after it leaves the node or faults. -/
theorem register_device (hdev : env.deviceCreate = true ∧ env.idrAlloc ∉ s.devices) :
    s.qotTimelineChdevRegister env = none ∧ (env.posixClockRegister = false ∨ env.sysfsInit = false)
      ∨ (∃ s', s.qotTimelineChdevRegister env = some (-1, s')
          ∧ s'.devices = env.idrAlloc :: s.devices)
        ∧ (env.posixClockRegister = false ∨ env.sysfsInit = false)
      ∨ s.qotTimelineChdevRegister env = some (env.idrAlloc, s.withDevice env.idrAlloc addr)
        ∧ env.posixClockRegister = true ∧ env.sysfsInit = true := by
  have hdev' : env.deviceCreate = true
      ∧ env.idrAlloc ∉ ((s.kzalloc addr).idrAlloc env.idrAlloc addr).devices := hdev
  simp only [KernelSets.qotTimelineChdevRegister, haddr, if_neg hindex, if_pos hdev']
  cases hclock : env.posixClockRegister with
  | false => exact Or.inr (Or.inl ⟨⟨_, rfl, rfl⟩, Or.inl rfl⟩)
  | true =>
    cases hsysfs : env.sysfsInit with
    | true =>
      simp only [Bool.true_eq_false, if_false, hdev']
      exact Or.inr (Or.inr ⟨rfl, trivial, trivial⟩)
    | false =>
      simp only [Bool.true_eq_false, if_false, if_true, hdev', KernelSets.failSysfs,
        KernelSets.posixClockUnregister]
      by_cases hfiles : env.files = 0
      · -- the release function walks lists that are not there yet
        left
        simp [hfiles, KernelSets.qotTimelineChdevDelete]
      · right; left
        simp only [if_neg hfiles]
        exact ⟨⟨_, rfl, rfl⟩, Or.inr trivial⟩

end Registration

/-! ## The creation -/

/-- The unregistration finds the device that has just been made. -/
theorem unregister_withDevice (s : KernelSets) (env : CreationEnv) (index : Int32) (addr : Nat) :
    (s.withDevice index addr).qotTimelineChdevUnregister index env
      = if env.bound then some (s.withDevice index addr)
        else ((s.withDevice index addr).deviceDestroy index).posixClockUnregister index addr
          env.files true := by
  have hfind : (s.withDevice index addr).idrFind index = some addr := by
    simp [KernelSets.withDevice, KernelSets.idrFind, KernelSets.idrAlloc, KernelSets.deviceCreate,
      KernelSets.clockRegister, KernelSets.note]
  simp only [KernelSets.qotTimelineChdevUnregister, hfind]

/-- It undoes the registration exactly if nobody has touched the device. -/
theorem unregister_iff (s : KernelSets) (env : CreationEnv) (index : Int32) (addr : Nat) :
    ∃ s', (s.withDevice index addr).qotTimelineChdevUnregister index env = some s'
      ∧ (env.files = 0 ∧ env.bound = false → NothingDone s s')
      ∧ (¬ (env.files = 0 ∧ env.bound = false) → s'.map = (index, addr) :: s.map) := by
  rw [unregister_withDevice]
  cases hbound : env.bound with
  | true => exact ⟨_, rfl, fun h => by simp at h, fun _ => rfl⟩
  | false =>
    simp only [Bool.false_eq_true, if_false, KernelSets.posixClockUnregister]
    by_cases hfiles : env.files = 0
    · refine ⟨_, by rw [if_pos hfiles]; rfl, fun _ => ?_, fun h => absurd ⟨hfiles, trivial⟩ h⟩
      exact (nothingDone_deviceClock _ index addr).idrRemove.kfree
    · exact ⟨_, if_neg hfiles, fun h => absurd h.1 hfiles, fun _ => rfl⟩

theorem insert_eq_none_iff_taken {r : TimelinePriv} :
    s.qotTimelineInsert r = none ↔ ∃ r' ∈ s.registry, r'.info.name = r.info.name := by
  rw [KernelSets.qotTimelineInsert, Option.map_eq_none_iff, insertByName]
  cases hfind : s.registry.find? fun r' => r'.info.name = r.info.name with
  | none =>
    have hfree := List.find?_eq_none.mp hfind
    simp only [decide_eq_true_eq] at hfree
    refine iff_of_false (by simp) ?_
    rintro ⟨r', hr', hname⟩
    exact hfree r' hr' hname
  | some r' =>
    refine iff_of_true rfl ⟨r', List.mem_of_find?_eq_some hfind, ?_⟩
    simpa using List.find?_some hfind

section Creation

variable {looked : List TimelinePriv} {timeline : QotTimeline} {env : CreationEnv} {priv addr : Nat}

theorem allOrNothing_of_eq {r : Int} (h : s.qotTimelineCreate looked timeline env = some (r, s')) :
    AllOrNothing looked s timeline env ↔ (r ≠ 0 → NothingDone s s') := by
  unfold AllOrNothing
  simp only [h, Option.some.injEq, Prod.mk.injEq]
  constructor
  · rintro ⟨_, _, ⟨rfl, rfl⟩, hdone⟩
    exact hdone
  · exact fun hdone => ⟨r, s', ⟨rfl, rfl⟩, hdone⟩

theorem not_allOrNothing_of_fault (h : s.qotTimelineCreate looked timeline env = none) :
    ¬ AllOrNothing looked s timeline env := by
  rintro ⟨r, s', hsome, -⟩
  rw [h] at hsome
  cases hsome

variable (hfree : ∀ r ∈ looked, r.info.name ≠ timeline.name) (hpriv : env.privAddr = some priv)

include hfree hpriv

/-- A creation that is not refused at once is the registration and what follows from it. -/
theorem create_of_free :
    s.qotTimelineCreate looked timeline env
      = ((s.kzalloc priv).qotTimelineChdevRegister env).bind fun r =>
        r.2.insertRegistered r.1 timeline env priv := by
  have hfind : looked.find? (fun r => r.info.name = timeline.name) = none := by
    simpa [List.find?_eq_none] using hfree
  simp only [KernelSets.qotTimelineCreate, hfind, hpriv]

theorem create_of_register_failed
    (hreg : (s.kzalloc priv).qotTimelineChdevRegister env = some (-1, s')) :
    s.qotTimelineCreate looked timeline env = some (1, s'.kfree priv) := by
  rw [create_of_free hfree hpriv, hreg]
  rfl

/-- The device is there: everything depends on whether the name is still free. -/
theorem allOrNothing_of_registered (hindex : ¬ env.idrAlloc < 0)
    (hreg : (s.kzalloc priv).qotTimelineChdevRegister env
      = some (env.idrAlloc, (s.kzalloc priv).withDevice env.idrAlloc addr)) :
    AllOrNothing looked s timeline env
      ↔ ((∃ r ∈ s.registry, r.info.name = timeline.name) → env.files = 0 ∧ env.bound = false) := by
  have hcreate := create_of_free (s := s) hfree hpriv
  rw [hreg] at hcreate
  simp only [Option.bind_some, KernelSets.insertRegistered, if_neg hindex] at hcreate
  have htaken := insert_eq_none_iff_taken (s := (s.kzalloc priv).withDevice env.idrAlloc addr)
    (r := ⟨priv, { timeline with index := env.idrAlloc }⟩)
  cases hins : ((s.kzalloc priv).withDevice env.idrAlloc addr).qotTimelineInsert
      ⟨priv, { timeline with index := env.idrAlloc }⟩ with
  | some s' =>
    simp only [hins] at hcreate htaken
    rw [allOrNothing_of_eq hcreate]
    refine iff_of_true (fun h => absurd rfl h) fun hname => ?_
    exact absurd (htaken.mpr hname) (by simp)
  | none =>
    obtain ⟨s', hunreg, hclean, hleft⟩ := unregister_iff (s.kzalloc priv) env env.idrAlloc addr
    simp only [hins, hunreg, Option.map_some] at hcreate htaken
    rw [allOrNothing_of_eq hcreate]
    constructor
    · intro hdone _
      by_contra hused
      -- the index is still in the map
      have hmap : (s'.kfree priv).map = s.map := (hdone (by decide)).map
      have hstill : (s'.kfree priv).map = (env.idrAlloc, addr) :: s.map := hleft hused
      exact List.cons_ne_self _ _ (hstill.symm.trans hmap)
    · intro hunused _
      exact (hclean (hunused (htaken.mp trivial))).kfree

theorem create_of_register_fault (hreg : (s.kzalloc priv).qotTimelineChdevRegister env = none) :
    ¬ AllOrNothing looked s timeline env := by
  refine not_allOrNothing_of_fault ?_
  rw [create_of_free hfree hpriv, hreg]
  rfl

variable (haddr : env.implAddr = some addr) (hindex : ¬ env.idrAlloc < 0)

include haddr hindex

/-- The call has a device node: what comes after it must not fail. -/
theorem allOrNothing_device (hdev : env.deviceCreate = true ∧ env.idrAlloc ∉ s.devices) :
    AllOrNothing looked s timeline env
      ↔ env.posixClockRegister = true ∧ env.sysfsInit = true
        ∧ ((∃ r ∈ s.registry, r.info.name = timeline.name) →
          env.files = 0 ∧ env.bound = false) := by
  have hbroken : env.posixClockRegister = false ∨ env.sysfsInit = false →
      ¬ (env.posixClockRegister = true ∧ env.sysfsInit = true
        ∧ ((∃ r ∈ s.registry, r.info.name = timeline.name) →
          env.files = 0 ∧ env.bound = false)) := by
    rintro (hbad | hbad) ⟨hclock, hsysfs, -⟩
    · simp [hbad] at hclock
    · simp [hbad] at hsysfs
  rcases register_device (s := s.kzalloc priv) haddr hindex hdev with
    ⟨hfault, hbad⟩ | ⟨⟨s', hreg, hleft⟩, hbad⟩ | ⟨hreg, hclock, hsysfs⟩
  · exact iff_of_false (create_of_register_fault hfree hpriv hfault) (hbroken hbad)
  · rw [allOrNothing_of_eq (create_of_register_failed hfree hpriv hreg)]
    refine iff_of_false (fun hdone => ?_) (hbroken hbad)
    -- the node is still there
    have hdevices : s'.devices = s.devices := (hdone (by decide)).devices
    exact List.cons_ne_self _ _ (hleft.symm.trans hdevices)
  · rw [allOrNothing_of_registered hfree hpriv hindex hreg]
    exact ⟨fun h => ⟨hclock, hsysfs, h⟩, fun h => h.2.2⟩

/-- It has none: the clock must fail as well. -/
theorem allOrNothing_no_device (hdev : ¬ (env.deviceCreate = true ∧ env.idrAlloc ∉ s.devices)) :
    AllOrNothing looked s timeline env ↔ env.posixClockRegister = false := by
  rcases register_no_device (s := s.kzalloc priv) haddr hindex hdev with
    ⟨hclock, hfault⟩ | ⟨hclock, s', hreg, hdone⟩
  · exact iff_of_false (create_of_register_fault hfree hpriv hfault) (by simp [hclock])
  · rw [allOrNothing_of_eq (create_of_register_failed hfree hpriv hreg)]
    exact iff_of_true (fun _ => hdone.kfree) hclock

end Creation

/-- A registration that succeeds leaves the registry alone. -/
theorem register_registry {env : CreationEnv} {index : Int32} (hpos : ¬ index < 0) :
    s.qotTimelineChdevRegister env = some (index, s') → s'.registry = s.registry := by
  fun_cases KernelSets.qotTimelineChdevRegister s env with
  | case4 => exact nofun
  | case5 =>
    intro h
    obtain ⟨_, -, ⟨⟩⟩ := Option.map_eq_some_iff.mp h
    exact absurd (by decide) hpos
  | case6 _ _ s₁ _ _ dev s₂ =>
    intro h
    obtain ⟨-, rfl⟩ := Prod.mk.inj (Option.some.inj h)
    show s₂.registry = s.registry
    simp only [s₂]
    split <;> rfl
  | _ =>
    rintro ⟨⟩
    exact absurd (by decide) hpos

/-- **A creation that succeeds is an insertion into the registry** of `Registry.Bind`. -/
theorem create_inserts {looked : List TimelinePriv} {timeline : QotTimeline} {env : CreationEnv} :
    s.qotTimelineCreate looked timeline env = some (0, s') →
      ∃ index, Qot.qotTimelineInsert (s.registry.map (·.info)) { timeline with index := index }
        = some (s'.registry.map (·.info)) := by
  fun_cases KernelSets.qotTimelineCreate looked s timeline env with
  | case3 _ priv _ =>
    intro h
    obtain ⟨⟨index, s₁⟩, hreg, hins⟩ := Option.bind_eq_some_iff.mp h
    revert hins
    fun_cases KernelSets.insertRegistered s₁ index timeline env priv with
    | case1 => exact nofun
    | case2 => simp
    | case3 hpos s₂ hins =>
      rintro ⟨⟩
      obtain ⟨registry, hname, rfl⟩ := Option.map_eq_some_iff.mp hins
      rw [register_registry hpos hreg] at hname
      refine ⟨index, (insertByName_infos s.registry ⟨priv, _⟩).trans ?_⟩
      exact congrArg (Option.map _) hname
  | _ => exact nofun

/-- **A creation is all or nothing exactly under the condition.** -/
theorem timeline_creation_iff (looked : List TimelinePriv) (s : KernelSets) (timeline : QotTimeline)
    (env : CreationEnv) :
    AllOrNothing looked s timeline env ↔ CreationClean looked s timeline env := by
  unfold CreationClean
  by_cases hfree : ∀ r ∈ looked, r.info.name ≠ timeline.name
  swap
  · -- the name is there already
    obtain ⟨r, hr, hname⟩ : ∃ r ∈ looked, r.info.name = timeline.name := by simpa using hfree
    have hfind : looked.find? (fun r => r.info.name = timeline.name) ≠ none := by
      simpa [List.find?_eq_none] using ⟨r, hr, hname⟩
    obtain ⟨r', hfind⟩ := Option.ne_none_iff_exists'.mp hfind
    have hcreate : s.qotTimelineCreate looked timeline env = some (-1, s) := by
      simp only [KernelSets.qotTimelineCreate, hfind]
    rw [allOrNothing_of_eq hcreate]
    exact iff_of_true (fun _ => NothingDone.refl s) fun h => absurd h hfree
  cases hpriv : env.privAddr with
  | none =>
    have hfind : looked.find? (fun r => r.info.name = timeline.name) = none := by
      simpa [List.find?_eq_none] using hfree
    have hcreate : s.qotTimelineCreate looked timeline env = some (1, s) := by
      simp only [KernelSets.qotTimelineCreate, hfind, hpriv]
    rw [allOrNothing_of_eq hcreate]
    exact iff_of_true (fun _ => NothingDone.refl s) fun _ h => absurd rfl h
  | some priv =>
    cases haddr : env.implAddr with
    | none =>
      have hreg : (s.kzalloc priv).qotTimelineChdevRegister env = some (-1, s.kzalloc priv) := by
        simp only [KernelSets.qotTimelineChdevRegister, haddr]
      rw [allOrNothing_of_eq (create_of_register_failed hfree hpriv hreg)]
      exact iff_of_true (fun _ => (NothingDone.refl _).kfree) fun _ _ h => absurd rfl h
    | some addr =>
      by_cases hneg : env.idrAlloc < 0
      · obtain ⟨s', hreg, hdone⟩ := register_no_index (s := s.kzalloc priv) haddr hneg
        rw [allOrNothing_of_eq (create_of_register_failed hfree hpriv hreg)]
        exact iff_of_true (fun _ => hdone.kfree) fun _ _ _ h => absurd hneg h
      have hreached : ∀ p : Prop, ((∀ r ∈ looked, r.info.name ≠ timeline.name) → some priv ≠ none →
          some addr ≠ none → ¬ env.idrAlloc < 0 → p) ↔ p := by
        intro p
        exact ⟨fun h => h hfree (by simp) (by simp) hneg, fun h _ _ _ _ => h⟩
      rw [hreached]
      by_cases hdev : env.deviceCreate = true ∧ env.idrAlloc ∉ s.devices
      · rw [if_pos hdev]
        exact allOrNothing_device hfree hpriv haddr hneg hdev
      · rw [if_neg hdev]
        exact allOrNothing_no_device hfree hpriv haddr hneg hdev

def KernelSets.empty : KernelSets := ⟨[], [], [], [], []⟩

/-- Everything can be had but the clock. -/
def noClockEnv : CreationEnv := ⟨some 0, some 1, 0, true, false, true, 0, false⟩

/-- The call fails and `/dev/timeline0` stays; and if it is the sysfs files that cannot be had, the
call does not return. -/
theorem timeline_creation_leaves_device :
    (KernelSets.empty.qotTimelineCreate [] ⟨nameA, 0, .qotTimelineLocal⟩ noClockEnv).map
        (fun r => (r.1, r.2.devices)) = some (1, [0])
      ∧ ¬ AllOrNothing [] KernelSets.empty ⟨nameA, 0, .qotTimelineLocal⟩ noClockEnv
      ∧ KernelSets.empty.qotTimelineCreate [] ⟨nameA, 0, .qotTimelineLocal⟩
        { noClockEnv with posixClockRegister := true, sysfsInit := false } = none := by
  refine ⟨by decide, ?_, by decide⟩
  rintro ⟨r, s', hcreate, hdone⟩
  cases hcreate
  have hdevices := (hdone (by decide)).devices
  cases hdevices

end Qot
