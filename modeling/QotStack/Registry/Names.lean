import QotStack.Lib.CString
import QotStack.Registry.Bind

/-!
# QotStack — the names a process binds with

`timeline_bind` (`api/c/qot.c`) copies two strings into the caller's `timeline_t`: the name of the
timeline, which the kernel compares with those it knows, and the name of the application. Both
fields have `QOT_MAX_NAMELEN` bytes, and so a string needs to be shorter than that to be followed by
its terminator in the field.

The length of the first is checked, with room for no terminator. The length of the second is not
checked. `name_copies_iff` says when the copies keep to their fields. The kernel tells timelines
apart in any case: the terminator of a name of full length falls in the field that comes next, which
the kernel is given as well.
-/

namespace Qot

open CString

/-! ## The layout of `timeline_t` -/

def infoNameOffset : Nat := 0

def infoTypeOffset : Nat := 68

/-- `sizeof(qot_timeline_t)`, what the ioctls copy: the name, the index and the type. -/
def infoSize : Nat := 72

def bindingNameOffset : Nat := 72

def fdOffset : Nat := 224

def qotusrFdOffset : Nat := 228

/-- An `int` in memory, its lowest byte first. -/
def intBytes (x : Int32) : List UInt8 :=
  (List.range 4).map fun i => (x.toUInt32 >>> UInt32.ofNat (8 * i)).toUInt8

/-! ## Binding -/

/-- What the system calls of `timeline_bind` answer. The ioctls may write to memory; opening the
device of the timeline depends on the index found there. -/
structure BindCalls where
  usrFile : Int32
  createTimeline : Memory → Int32 × Memory
  getTimelineInfo : Memory → Int32 × Memory
  openTimeline : Memory → Int32

/-- A `strcpy` into a name field at `dst`, with the memory before it. -/
structure NameCopy where
  dst : Nat
  string : CStr
  before : Memory

def NameCopy.after (c : NameCopy) : Memory := strcpy c.before c.dst c.string

def typeOf (uuid : CStr) : Int32 := if [103, 108, 95].isPrefixOf uuid.bytes then 1 else 0

/-- From the copy of the timeline's name to the one of the application's: the memory at that point,
or `none` if `timeline_bind` returns before. -/
def timelineBindOpen (calls : BindCalls) (mem : Memory) (timeline : Nat) : Option Memory :=
  let (created, mem) := calls.createTimeline mem
  let looked :=
    if created < 0 then
      let (found, mem) := calls.getTimelineInfo mem
      if found < 0 then none else some mem
    else some mem
  looked.bind fun mem =>
    let fd := calls.openTimeline mem
    -- the source tests for zero, so a failed open goes on
    if fd = 0 then none else some (store mem (timeline + fdOffset) (intBytes fd))

/-- The copies `timeline_bind` makes, in order; `none` stands for a null pointer. -/
def timelineBind (calls : BindCalls) (mem : Memory) (timeline : Nat) (uuid name : Option CStr) :
    List NameCopy :=
  match uuid, name with
  | some uuid, some name =>
    if uuid.bytes.length > qotMaxNamelen then []
    else
      let mem := store mem (timeline + infoTypeOffset) (intBytes (typeOf uuid))
      if calls.usrFile < 0 then []
      else
        let mem := store mem (timeline + qotusrFdOffset) (intBytes calls.usrFile)
        let first : NameCopy := ⟨timeline + infoNameOffset, uuid, mem⟩
        match timelineBindOpen calls first.after timeline with
        | none => [first]
        | some mem => [first, ⟨timeline + bindingNameOffset, name, mem⟩]
  | _, _ => []

/-! ## What the copies should do -/

/-- The copy changes nothing outside its field and leaves the string there. -/
def NameCopy.Contained (c : NameCopy) : Prop :=
  (∀ addr, addr < c.dst ∨ c.dst + qotMaxNamelen ≤ addr → c.after addr = c.before addr)
    ∧ stringIn c.after c.dst qotMaxNamelen = some c.string.bytes

/-- The checks of `timeline_bind` that stand before its first copy. -/
def PassesChecks (calls : BindCalls) (uuid : CStr) : Prop :=
  uuid.bytes.length ≤ qotMaxNamelen ∧ 0 ≤ calls.usrFile

/-- The kernel takes a timeline for the one the caller names: `strcmp` of the name it was given with
the name in what it holds of the timeline. -/
def Denotes (c : NameCopy) (registered : List UInt8) : Prop :=
  strcmp (load c.after c.dst infoSize) registered = some .eq

/-- No copy of a different accepted name denotes the timeline that this copy denotes. -/
def DenotesAlone (c : NameCopy) : Prop :=
  ∀ (other : NameCopy) (registered : List UInt8), other.string.bytes.length ≤ qotMaxNamelen →
    Denotes c registered → Denotes other registered → c.string = other.string

/-- Every copy of the run keeps to its field, and the one of the timeline's name denotes no timeline
that a different name denotes. -/
def NamesStored (calls : BindCalls) (mem : Memory) (timeline : Nat) (uuid name : CStr) : Prop :=
  ∀ c ∈ timelineBind calls mem timeline (some uuid) (some name),
    c.Contained ∧ (c.dst = timeline + infoNameOffset → DenotesAlone c)

/-- The application's name is reached. -/
def ReachesName (calls : BindCalls) (mem : Memory) (timeline : Nat) (uuid name : CStr) : Prop :=
  ∃ c ∈ timelineBind calls mem timeline (some uuid) (some name),
    c.dst = timeline + bindingNameOffset

/-! ## One copy -/

/-- A copy keeps to its field exactly if the terminator is in it. -/
theorem NameCopy.contained_iff (c : NameCopy) :
    c.Contained ↔ c.string.bytes.length < qotMaxNamelen := by
  constructor
  · intro h
    by_contra hlong
    have hread := h.2
    rw [NameCopy.after, stringIn_strcpy, if_neg hlong] at hread
    simp at hread
  · intro hfits
    refine ⟨fun addr haddr => strcpy_outside _ (by omega), ?_⟩
    rw [NameCopy.after, stringIn_strcpy, if_pos hfits]

/-- What the kernel finds for an accepted name starts with that name and its terminator. -/
theorem prefix_of_denotes {c : NameCopy} {registered : List UInt8}
    (hlen : c.string.bytes.length ≤ qotMaxNamelen) (h : Denotes c registered) :
    c.string.bytes ++ [0] <+: registered := by
  have hfits : c.string.bytes.length < infoSize := by
    unfold qotMaxNamelen at hlen
    unfold infoSize
    omega
  obtain ⟨rest, hload⟩ := load_strcpy c.before c.dst c.string hfits
  rw [Denotes, NameCopy.after, hload] at h
  exact prefix_of_strcmp c.string.terminated h

theorem denotesAlone_of_length {c : NameCopy} (hlen : c.string.bytes.length ≤ qotMaxNamelen) :
    DenotesAlone c := by
  intro other registered hother hdenotes hdenotes'
  apply CStr.ext
  exact eq_of_terminated c.string.terminated other.string.terminated
    (prefix_of_denotes hlen hdenotes) (prefix_of_denotes hother hdenotes')

/-! ## The run -/

/-- Past its checks, `timeline_bind` makes the first copy, and the second as far as it gets. -/
theorem timelineBind_cases {calls : BindCalls} {uuid : CStr} (mem : Memory) (timeline : Nat)
    (name : CStr) (h : PassesChecks calls uuid) :
    ∃ before, timelineBind calls mem timeline (some uuid) (some name)
          = [⟨timeline + infoNameOffset, uuid, before⟩]
        ∨ ∃ before', timelineBind calls mem timeline (some uuid) (some name)
          = [⟨timeline + infoNameOffset, uuid, before⟩,
            ⟨timeline + bindingNameOffset, name, before'⟩] := by
  obtain ⟨hlen, hfile⟩ := h
  let mem' := store (store mem (timeline + infoTypeOffset) (intBytes (typeOf uuid)))
    (timeline + qotusrFdOffset) (intBytes calls.usrFile)
  refine ⟨mem', ?_⟩
  simp only [timelineBind, if_neg (Nat.not_lt.mpr hlen), if_neg (Int32.not_lt.mpr hfile)]
  split
  · exact Or.inl rfl
  · exact Or.inr ⟨_, rfl⟩

/-- **The names are stored as they are exactly if both leave room for their terminators.** -/
theorem name_copies_iff (calls : BindCalls) (mem : Memory) (timeline : Nat) (uuid name : CStr)
    (h : PassesChecks calls uuid) :
    NamesStored calls mem timeline uuid name ↔
      uuid.bytes.length < qotMaxNamelen
        ∧ (ReachesName calls mem timeline uuid name → name.bytes.length < qotMaxNamelen) := by
  have hne : bindingNameOffset ≠ infoNameOffset := by decide
  have halone : ∀ before, DenotesAlone ⟨timeline + infoNameOffset, uuid, before⟩ :=
    fun before => denotesAlone_of_length h.1
  obtain ⟨before, hrun | ⟨before', hrun⟩⟩ := timelineBind_cases mem timeline name h
  · simp [NamesStored, ReachesName, hrun, NameCopy.contained_iff, halone, hne.symm]
  · simp [NamesStored, ReachesName, hrun, NameCopy.contained_iff, halone, hne]

/-! A structure full of ones, and calls that all succeed. -/

def onesMemory : Memory := fun _ => 255

def smoothCalls : BindCalls := ⟨3, fun mem => (0, mem), fun mem => (0, mem), fun _ => 4⟩

def letters (n : Nat) : CStr := ⟨List.replicate n 97, by simp [List.mem_replicate]⟩

theorem name_copies_iff_short :
    PassesChecks smoothCalls (letters 3)
      ∧ NamesStored smoothCalls onesMemory 0 (letters 3) (letters 5) := by
  have hchecks : PassesChecks smoothCalls (letters 3) := by
    unfold PassesChecks
    decide
  exact ⟨hchecks, (name_copies_iff smoothCalls onesMemory 0 _ _ hchecks).mpr
    ⟨by decide, fun _ => by decide⟩⟩

/-- **A name of 64 bytes is accepted and spills over.** It has no terminator in its field; the one
it has is the lowest byte of the index. -/
theorem name_copies_spill :
    PassesChecks smoothCalls (letters 64)
      ∧ (∃ c ∈ timelineBind smoothCalls onesMemory 0 (some (letters 64)) (some (letters 1)),
          c.dst = infoNameOffset ∧ c.string = letters 64
            ∧ c.before 64 = 255 ∧ c.after 64 = 0
            ∧ stringIn c.after c.dst qotMaxNamelen = none)
      ∧ ¬ NamesStored smoothCalls onesMemory 0 (letters 64) (letters 1) := by
  have hchecks : PassesChecks smoothCalls (letters 64) := by
    unfold PassesChecks
    decide
  have hlong : ¬ (letters 64).bytes.length < qotMaxNamelen := by decide
  let first : NameCopy := ⟨0 + infoNameOffset, letters 64,
    store (store onesMemory (0 + infoTypeOffset) (intBytes (typeOf (letters 64))))
      (0 + qotusrFdOffset) (intBytes smoothCalls.usrFile)⟩
  have hmem : first
      ∈ timelineBind smoothCalls onesMemory 0 (some (letters 64)) (some (letters 1)) :=
    List.mem_cons_self
  refine ⟨hchecks, ⟨first, hmem, rfl, rfl, rfl, strcpy_end _ _ _, ?_⟩, fun h => ?_⟩
  · rw [NameCopy.after, stringIn_strcpy, if_neg hlong]
  · exact hlong ((NameCopy.contained_iff first).mp (h first hmem).1)

end Qot
