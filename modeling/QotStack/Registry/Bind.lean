import QotStack.Lib.OrderedInsert
import QotStack.Clock.Mapping

/-!
# QotStack — from a timeline name to its device

A process binds to a timeline by name. The library asks the kernel to create the timeline, falls
back to looking it up, and opens `/dev/timelineX` for the index it then finds in its own structure
(`timeline_bind`, in `api/c/qot.c` and in the same words in `api/cpp/qot.cpp`). Three layers take
part: the registry (`qot_timeline.c`), the ioctls (`qot_user_chdev.c`) and the library.

Between them the case of a timeline that already exists is lost: the registry reports it as `-1`,
the ioctl turns that into a *positive* result and does not copy the timeline back, and the library
falls back only on a negative one. `timeline_bind_index_iff` says when the index is right
nevertheless.
-/

namespace Qot

open OrderedInsert

def qotMaxNamelen : Nat := 64

/-- The C string in a `char[QOT_MAX_NAMELEN]`: it has room for its terminator and no other. -/
structure CName where
  bytes : List UInt8
  fits : bytes.length < qotMaxNamelen
  terminated : 0 ∉ bytes
  deriving DecidableEq

structure QotTimeline where
  name : CName
  index : Int32
  type : QotTimelineType
  deriving DecidableEq

/-- `EACCES`, the one error number the ioctls use. -/
def eacces : Int := 13

/-! ## The registry -/

def qotTimelineFind (reg : List QotTimeline) (name : CName) : Option QotTimeline :=
  reg.find? fun t => t.name = name

def qotTimelineInsert (reg : List QotTimeline) (timeline : QotTimeline) :
    Option (List QotTimeline) :=
  match qotTimelineFind reg timeline.name with
  | some _ => none
  | none => some (insertBefore (fun t => timeline.name.bytes < t.name.bytes) timeline reg)

/-- What the kernel's allocators answer during a call: whether `kzalloc` succeeds, and the index
`qot_timeline_chdev_register` returns, negative on failure. -/
structure CreateServices where
  kzalloc : Bool
  chdevRegister : Int32
  deriving DecidableEq, Repr

/-- Create a new timeline (`qot_timeline_create`): the return value, the caller's structure and the
registry afterwards. -/
def qotTimelineCreate (reg : List QotTimeline) (timeline : QotTimeline) (svc : CreateServices) :
    Int × QotTimeline × List QotTimeline :=
  match qotTimelineFind reg timeline.name with
  | some existing => (-1, existing, reg)
  | none =>
    if svc.kzalloc then
      if svc.chdevRegister < 0 then (1, timeline, reg)
      else
        match qotTimelineInsert reg { timeline with index := svc.chdevRegister } with
        | none => (1, timeline, reg)
        | some reg' => (0, { timeline with index := svc.chdevRegister }, reg')
    else (1, timeline, reg)

def qotTimelineGetInfo (reg : List QotTimeline) (timeline : QotTimeline) : Option QotTimeline :=
  qotTimelineFind reg timeline.name

/-! ## The ioctls -/

structure UserCopy where
  fromUser : Bool
  toUser : Bool
  deriving DecidableEq, Repr

/-- `QOTUSR_CREATE_TIMELINE`: the result, the user's structure and the registry afterwards. -/
def qotusrCreateTimeline (reg : List QotTimeline) (arg : QotTimeline) (copy : UserCopy)
    (svc : CreateServices) : Int × QotTimeline × List QotTimeline :=
  if copy.fromUser then
    let (retval, msgt, reg') := qotTimelineCreate reg arg svc
    if retval = -1 then (1, arg, reg')
    else if retval ≠ 0 then (-eacces, arg, reg')
    else if copy.toUser then (0, msgt, reg')
    else (-eacces, arg, reg')
  else (-eacces, arg, reg)

/-- `QOTUSR_GET_TIMELINE_INFO`: the result and the user's structure afterwards. -/
def qotusrGetTimelineInfo (reg : List QotTimeline) (arg : QotTimeline) (copy : UserCopy) :
    Int × QotTimeline :=
  if copy.fromUser then
    match qotTimelineGetInfo reg arg with
    | none => (-eacces, arg)
    | some msgt => if copy.toUser then (0, msgt) else (-eacces, arg)
  else (-eacces, arg)

/-! ## The library -/

structure BindEnv where
  openUsr : Bool
  create : UserCopy
  svc : CreateServices
  getInfo : UserCopy
  deriving DecidableEq, Repr

/-- The type the library derives from a name: global ones start with `gl_`. -/
def timelineTypeOf (uuid : CName) : QotTimelineType :=
  if [103, 108, 95].isPrefixOf uuid.bytes then .qotTimelineGlobal else .qotTimelineLocal

/-- `timeline_bind` up to the point where it opens the device: the registry and the caller's
structure with which it goes on, or `none` if it returns an error. -/
def timelineBindLookUp (reg : List QotTimeline) (info : QotTimeline) (uuid : CName)
    (env : BindEnv) : Option (List QotTimeline × QotTimeline) :=
  if uuid.bytes.length > qotMaxNamelen then none
  else if env.openUsr then
    let info := { info with type := timelineTypeOf uuid, name := uuid }
    let (created, info, reg) := qotusrCreateTimeline reg info env.create env.svc
    if created < 0 then
      let (found, info) := qotusrGetTimelineInfo reg info env.getInfo
      if found < 0 then none else some (reg, info)
    else some (reg, info)
  else none

/-! ## The index -/

variable {reg reg' : List QotTimeline} {t : QotTimeline}

section
variable (h : qotTimelineInsert reg t = some reg')
include h

/-- What an insertion that succeeds does. -/
theorem qotTimelineInsert_cases :
    qotTimelineFind reg t.name = none
      ∧ reg' = insertBefore (fun u => t.name.bytes < u.name.bytes) t reg := by
  simp only [qotTimelineInsert] at h
  cases hfind : qotTimelineFind reg t.name with
  | some _ => simp [hfind] at h
  | none =>
    simp only [hfind, Option.some.injEq] at h
    exact ⟨rfl, h.symm⟩

theorem qotTimelineFind_insert : qotTimelineFind reg' t.name = some t := by
  obtain ⟨hfind, rfl⟩ := qotTimelineInsert_cases h
  exact find?_insertBefore_self _ _ (by simp) hfind

theorem qotTimelineInsert_perm : reg'.Perm (t :: reg) := by
  obtain ⟨-, rfl⟩ := qotTimelineInsert_cases h
  exact insertBefore_perm _ _ reg

end

/-- The device has got an index, and with it the timeline is inserted. -/
abbrev TimelineInserted (reg : List QotTimeline) (timeline : QotTimeline) (svc : CreateServices)
    (reg' : List QotTimeline) : Prop :=
  0 ≤ svc.chdevRegister
    ∧ qotTimelineInsert reg { timeline with index := svc.chdevRegister } = some reg'

/-- The registry's part of a create: the timeline is there, or it is inserted, or nothing is
done. -/
theorem qotTimelineCreate_outcomes (reg : List QotTimeline) (timeline : QotTimeline)
    (svc : CreateServices) :
    (∃ t, qotTimelineFind reg timeline.name = some t
        ∧ qotTimelineCreate reg timeline svc = (-1, t, reg))
      ∨ (∃ reg', TimelineInserted reg timeline svc reg'
        ∧ qotTimelineCreate reg timeline svc
          = (0, { timeline with index := svc.chdevRegister }, reg'))
      ∨ (qotTimelineFind reg timeline.name = none
        ∧ qotTimelineCreate reg timeline svc = (1, timeline, reg)) := by
  fun_cases qotTimelineCreate reg timeline svc with
  | case1 t hfind => exact Or.inl ⟨t, hfind, rfl⟩
  | case2 hfind _ _ => exact Or.inr (Or.inr ⟨hfind, rfl⟩)
  | case3 hfind _ _ _ => exact Or.inr (Or.inr ⟨hfind, rfl⟩)
  | case4 hfind _ hneg reg' hins =>
    exact Or.inr (Or.inl ⟨reg', ⟨Int32.not_lt.mp hneg, hins⟩, rfl⟩)
  | case5 hfind _ => exact Or.inr (Or.inr ⟨hfind, rfl⟩)

/-- What the ioctl makes of these outcomes. Only a timeline that existed gives a positive result,
and then the caller's structure is not written. -/
theorem qotusrCreateTimeline_cases (reg : List QotTimeline) (arg : QotTimeline) (copy : UserCopy)
    (svc : CreateServices) :
    (∃ t, copy.fromUser = true ∧ qotTimelineFind reg arg.name = some t
        ∧ qotusrCreateTimeline reg arg copy svc = (1, arg, reg))
      ∨ (∃ reg', TimelineInserted reg arg svc reg' ∧ qotusrCreateTimeline reg arg copy svc
          = (0, { arg with index := svc.chdevRegister }, reg'))
      ∨ ((copy.fromUser = false ∨ qotTimelineFind reg arg.name = none)
        ∧ ∃ reg', (reg' = reg ∨ TimelineInserted reg arg svc reg')
          ∧ qotusrCreateTimeline reg arg copy svc = (-eacces, arg, reg')) := by
  cases hcopy : copy.fromUser with
  | false =>
    right; right
    exact ⟨Or.inl rfl, reg, Or.inl rfl, by simp [qotusrCreateTimeline, hcopy]⟩
  | true =>
    rcases qotTimelineCreate_outcomes reg arg svc with
      ⟨t, hfind, hcreate⟩ | ⟨reg', hins, hcreate⟩ | ⟨hnone, hcreate⟩
    · exact Or.inl ⟨t, rfl, hfind, by simp [qotusrCreateTimeline, hcopy, hcreate]⟩
    · right
      cases hto : copy.toUser with
      | true => exact Or.inl ⟨reg', hins, by simp [qotusrCreateTimeline, hcopy, hcreate, hto]⟩
      | false =>
        -- the timeline is in the registry now, but the caller is told of an error
        right
        exact ⟨Or.inr (qotTimelineInsert_cases hins.2).1, reg', Or.inr hins,
          by simp [qotusrCreateTimeline, hcopy, hcreate, hto]⟩
    · right; right
      exact ⟨Or.inr hnone, reg, Or.inl rfl, by simp [qotusrCreateTimeline, hcopy, hcreate]⟩

/-- Whenever the library goes on to open a device, the index it opens is the one under which the
registry holds the name. -/
def BindsRegisteredIndex (reg : List QotTimeline) (info : QotTimeline) (uuid : CName)
    (env : BindEnv) : Prop :=
  ∀ reg' info', timelineBindLookUp reg info uuid env = some (reg', info') →
    ∃ t, qotTimelineFind reg' uuid = some t ∧ info'.index = t.index

theorem qotusrGetTimelineInfo_index {arg : QotTimeline} {copy : UserCopy}
    (h : ¬ (qotusrGetTimelineInfo reg arg copy).1 < 0) :
    qotTimelineFind reg arg.name = some (qotusrGetTimelineInfo reg arg copy).2 := by
  revert h
  simp only [qotusrGetTimelineInfo, qotTimelineGetInfo, eacces]
  split
  · cases hfind : qotTimelineFind reg arg.name with
    | none => simp
    | some t => cases copy.toUser <;> simp
  · simp

section LookUp

variable {reg reg₁ : List QotTimeline} {info info₁ : QotTimeline} {uuid : CName} {env : BindEnv}

theorem timelineBindLookUp_of_closed (hopen : env.openUsr = false) :
    timelineBindLookUp reg info uuid env = none := by
  simp [timelineBindLookUp, hopen]

theorem timelineBindLookUp_of_created {created : Int} (hopen : env.openUsr = true)
    (hcreated : 0 ≤ created)
    (hcreate : qotusrCreateTimeline reg { info with type := timelineTypeOf uuid, name := uuid }
      env.create env.svc = (created, info₁, reg₁)) :
    timelineBindLookUp reg info uuid env = some (reg₁, info₁) := by
  have hlen : ¬ uuid.bytes.length > qotMaxNamelen := Nat.not_lt.mpr uuid.fits.le
  simp only [timelineBindLookUp, if_neg hlen, hopen, if_true, hcreate,
    if_neg (Int.not_lt.mpr hcreated)]

/-- After a negative result the fallback decides, and it is right. -/
theorem bindsRegisteredIndex_of_fallback (hopen : env.openUsr = true)
    (hcreate : qotusrCreateTimeline reg { info with type := timelineTypeOf uuid, name := uuid }
      env.create env.svc
        = (-eacces, { info with type := timelineTypeOf uuid, name := uuid }, reg₁)) :
    BindsRegisteredIndex reg info uuid env := by
  have hlen : ¬ uuid.bytes.length > qotMaxNamelen := Nat.not_lt.mpr uuid.fits.le
  have hneg : -eacces < 0 := by decide
  intro reg' info' h
  simp only [timelineBindLookUp, if_neg hlen, hopen, if_true, hcreate, if_pos hneg] at h
  split at h
  case isTrue => simp at h
  case isFalse hfound =>
    cases h
    exact ⟨_, qotusrGetTimelineInfo_index hfound, rfl⟩

end LookUp

/-- **The index is right exactly when the timeline is new, or the caller's structure happened to
hold its index already, or the create never reached the registry.** -/
theorem timeline_bind_index_iff (reg : List QotTimeline) (info : QotTimeline) (uuid : CName)
    (env : BindEnv) :
    BindsRegisteredIndex reg info uuid env ↔
      ∀ t, qotTimelineFind reg uuid = some t →
        info.index = t.index ∨ env.create.fromUser = false ∨ env.openUsr = false := by
  cases hopen : env.openUsr with
  | false => simp [BindsRegisteredIndex, timelineBindLookUp_of_closed hopen]
  | true =>
    rcases qotusrCreateTimeline_cases reg { info with type := timelineTypeOf uuid, name := uuid }
        env.create env.svc with
      ⟨t, hcopy, hfind, hcreate⟩ | ⟨reg₁, hins, hcreate⟩ | ⟨hmissed, reg₁, -, hcreate⟩
    · -- the timeline exists: the positive result leaves the caller's index as it was
      have hfind' : qotTimelineFind reg uuid = some t := hfind
      have hbind := timelineBindLookUp_of_created hopen (by decide) hcreate
      simp [BindsRegisteredIndex, hbind, hfind', hcopy]
    · -- the timeline is new, and is copied back
      have hnone' : qotTimelineFind reg uuid = none := (qotTimelineInsert_cases hins.2).1
      have hfound' : qotTimelineFind reg₁ uuid = some _ := qotTimelineFind_insert hins.2
      have hbind := timelineBindLookUp_of_created hopen (by decide) hcreate
      simp [BindsRegisteredIndex, hbind, hnone', hfound']
    · -- no create is reported; whatever it did, the registry is asked again
      refine iff_of_true (bindsRegisteredIndex_of_fallback hopen hcreate) fun t ht => ?_
      rcases hmissed with hcopy | hnone
      · exact Or.inr (Or.inl hcopy)
      · have hnone' : qotTimelineFind reg uuid = none := hnone
        rw [hnone'] at ht
        simp at ht

/-! The second process to bind to a timeline, with a structure fresh from the allocator. -/

def nameA : CName := ⟨[97], by decide, by decide⟩

def oneTimeline : List QotTimeline := [⟨nameA, 5, .qotTimelineLocal⟩]

def smoothEnv : BindEnv := ⟨true, ⟨true, true⟩, ⟨true, 0⟩, ⟨true, true⟩⟩

/-- **A second process gets another device.** The timeline is registered at index 5; the process
goes on with the zero its structure held. -/
theorem timeline_bind_wrong_index :
    timelineBindLookUp oneTimeline ⟨nameA, 0, .qotTimelineLocal⟩ nameA smoothEnv
        = some (oneTimeline, ⟨nameA, 0, .qotTimelineLocal⟩)
      ∧ ¬ BindsRegisteredIndex oneTimeline ⟨nameA, 0, .qotTimelineLocal⟩ nameA smoothEnv := by
  have hbind : timelineBindLookUp oneTimeline ⟨nameA, 0, .qotTimelineLocal⟩ nameA smoothEnv
      = some (oneTimeline, ⟨nameA, 0, .qotTimelineLocal⟩) := by decide
  refine ⟨hbind, fun h => ?_⟩
  obtain ⟨t, hfind, hidx⟩ := h _ _ hbind
  have ht : qotTimelineFind oneTimeline nameA = some ⟨nameA, 5, .qotTimelineLocal⟩ := by decide
  rw [ht, Option.some.injEq] at hfind
  subst hfind
  exact absurd hidx (by decide)

end Qot
