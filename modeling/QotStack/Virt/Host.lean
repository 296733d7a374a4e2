import Mathlib.Logic.Function.Basic
import QotStack.Lib.Runs
import QotStack.Lib.SlotTable
import QotStack.Binding.Table
import QotStack.Registry.Bind

/-!
# QotStack — the host daemon of the guests (`qot_virthost.c`)

A guest cannot reach the timelines of its host. It sends CREATE, UPDATE and DESTROY messages to a
daemon on the host, which makes the system calls for it. The daemon keeps a table of the timelines
it created, with a count of the guests on each, and holds one binding of its own to each of them.

The daemon handles one message at a time, but a message takes several system calls, and the other
programs of the host create, bind to and remove timelines in between. So a step is one system call:
`HostPc` says which one the daemon makes next. What the guests were told is recorded in `history`,
which no code reads.

The registry and the bindings are those of `qot_timeline.c` and `qot_timeline_chdev.c`. An index
that is drawn is in use by no registered timeline; that a removed device keeps its index as long as
a file is open is left out.
-/

namespace Qot

open Runs SlotTable

/-! ## The kernel, as the programs of the host see it -/

structure HostKernel where
  reg : List QotTimeline
  tables : Int32 → BindingTable

def HostKernel.indices (k : HostKernel) : List Int32 := k.reg.map (·.index)

/-- `QOTUSR_CREATE_TIMELINE`. The device starts without bindings. -/
def HostKernel.createTimeline (k : HostKernel) (arg : QotTimeline) (copy : UserCopy)
    (svc : CreateServices) : Option (Int × QotTimeline × HostKernel) :=
  if svc.chdevRegister ∈ k.indices then none
  else
    let (retval, info, reg) := qotusrCreateTimeline k.reg arg copy svc
    some (retval, info,
      ⟨reg, Function.update k.tables svc.chdevRegister BindingTable.empty⟩)

/-- Remove a timeline (`qot_timeline_remove`): refused as long as there are bindings, unless asked
for by the administrator. -/
def HostKernel.qotTimelineRemove (k : HostKernel) (name : CName) (adminFlag : Bool) :
    Int × HostKernel :=
  match qotTimelineFind k.reg name with
  | none => (1, k)
  | some timeline =>
    if (k.tables timeline.index).root ≠ [] ∧ adminFlag = false then (1, k)
    else (0, { k with reg := k.reg.erase timeline })

/-- `QOTUSR_DESTROY_TIMELINE`. A refusal is a *positive* result. -/
def HostKernel.destroyTimeline (k : HostKernel) (arg : QotTimeline) (copied : Bool) :
    Int × HostKernel :=
  if copied then
    let (retval, k) := k.qotTimelineRemove arg.name false
    if retval ≠ 0 then (1, k) else (0, k)
  else (-eacces, k)

/-- A call on `/dev/timelineX`: it can be opened as long as the timeline is registered. -/
def HostKernel.ioctl (k : HostKernel) (index : Int32)
    (call : BindingTable → Option BindingTable) : Option HostKernel :=
  if index ∈ k.indices then
    (call (k.tables index)).map fun tl => { k with tables := Function.update k.tables index tl }
  else none

/-! ## The table of the daemon -/

def maxTimelines : Nat := 5

structure TimelineVirt where
  index : Int32
  bindCount : Int32
  running : Bool
  deriving DecidableEq, Repr

/-- The index of a free slot. -/
def noTimeline : Int32 := -1

/-- The first free slot; with none the C function returns an uninitialised value. -/
def addTimelineToList (vtimeline : List TimelineVirt) (timeline : QotTimeline) :
    Option Nat × List TimelineVirt :=
  (vtimeline.findIdx? fun v => v.index = noTimeline,
    modifyAt TimelineVirt.index noTimeline (fun _ => ⟨timeline.index, 0, true⟩) vtimeline)

def removeTimelineFromList (vtimeline : List TimelineVirt) (timeline : QotTimeline) :
    List TimelineVirt :=
  modifyAt TimelineVirt.index timeline.index (fun _ => ⟨noTimeline, 0, false⟩) vtimeline

def incrementBindCount (vtimeline : List TimelineVirt) (timeline : QotTimeline) :
    List TimelineVirt :=
  modifyAt TimelineVirt.index timeline.index
    (fun v => { v with bindCount := v.bindCount + 1 }) vtimeline

def decrementBindCount (vtimeline : List TimelineVirt) (timeline : QotTimeline) :
    List TimelineVirt :=
  modifyAt TimelineVirt.index timeline.index
    (fun v => { v with bindCount := v.bindCount - 1 }) vtimeline

/-- The count of a timeline; without a slot the C function ends without a `return`. -/
def getBindCount (vtimeline : List TimelineVirt) (timeline : QotTimeline) : Option Int32 :=
  (vtimeline.find? fun v => v.index = timeline.index).map (·.bindCount)

/-- Tell the writer thread of a timeline to end. -/
def stopThread (vtimeline : List TimelineVirt) (timeline : QotTimeline) : List TimelineVirt :=
  modifyAt TimelineVirt.index timeline.index (fun v => { v with running := false }) vtimeline

/-! ## The messages -/

inductive VirtmsgType where
  | timelineCreate
  | timelineDestroy
  | timelineUpdate
  | other
  deriving DecidableEq, Repr

structure QotVirtmsg where
  info : QotTimeline
  demand : Timequality
  msgtype : VirtmsgType
  deriving DecidableEq

/-- What happened, in order: a slot was taken for a timeline, or a guest got its answer, with
`QOT_RETURN_TYPE_OK` or not. The answer is the message with `info` as the calls left it. -/
inductive HostEvent where
  | taken (index : Int32)
  | answered (guest : Nat) (msg : QotVirtmsg) (ok : Bool)
  deriving DecidableEq

/-- The system call the daemon makes next for the message it is handling. -/
inductive HostPc where
  | idle
  | creating (guest : Nat) (msg : QotVirtmsg)
  | joining (guest : Nat) (msg : QotVirtmsg)
  | updating (guest : Nat) (msg : QotVirtmsg)
  | leaving (guest : Nat) (msg : QotVirtmsg)
  | destroying (guest : Nat) (msg : QotVirtmsg) (ok : Bool)
  deriving DecidableEq

/-- The host. `history` has the newest event first. -/
structure VirtHost where
  kernel : HostKernel
  vtimeline : List TimelineVirt
  tlCount : Nat
  pc : HostPc
  history : List HostEvent

def VirtHost.started : VirtHost where
  kernel := ⟨[], fun _ => BindingTable.empty⟩
  vtimeline := List.replicate maxTimelines ⟨noTimeline, 0, false⟩
  tlCount := 0
  pc := .idle
  history := []

/-- `send` the message back to the guest. -/
def VirtHost.reply (s : VirtHost) (guest : Nat) (msg : QotVirtmsg) (ok : Bool) : VirtHost :=
  { s with pc := .idle, history := .answered guest msg ok :: s.history }

/-! ## The steps -/

/-- A message arrives (the `switch` up to the first call that changes something). Each kind first
looks the timeline up by name with `QOTUSR_GET_TIMELINE_INFO`. -/
def VirtHost.receive (s : VirtHost) (guest : Nat) (msg : QotVirtmsg) (copy : UserCopy) :
    Option VirtHost :=
  let (retval, info) := qotusrGetTimelineInfo s.kernel.reg msg.info copy
  let found := { msg with info := info }
  match msg.msgtype with
  | .timelineCreate =>
    if retval < 0 then
      if s.tlCount < maxTimelines then some { s with pc := .creating guest found }
      else some (s.reply guest found false)
    else
      some ({ s with vtimeline := incrementBindCount s.vtimeline info }.reply guest found true)
  | .timelineDestroy =>
    if retval < 0 then some (s.reply guest found false)
    else
      let vtimeline := decrementBindCount s.vtimeline info
      (getBindCount vtimeline info).map fun bindCount =>
        if bindCount = 0 then
          { s with vtimeline := stopThread vtimeline info, pc := .leaving guest found }
        else { s with vtimeline := vtimeline }.reply guest found true
  | .timelineUpdate =>
    if retval < 0 then some (s.reply guest found false)
    else some { s with pc := .updating guest found }
  | .other => some (s.reply guest msg false)

/-- Take a slot for the timeline of a message. Without a free one the number of the slot, and with
it the thread that is started, is an uninitialised value. -/
def VirtHost.takeSlot (s : VirtHost) (guest : Nat) (msg : QotVirtmsg) : Option VirtHost :=
  let (tlId, vtimeline) := addTimelineToList s.vtimeline msg.info
  tlId.map fun _ =>
    { s with
      tlCount := if s.tlCount < maxTimelines then s.tlCount + 1 else s.tlCount
      vtimeline := incrementBindCount vtimeline msg.info
      pc := .joining guest msg
      history := .taken msg.info.index :: s.history }

/-- `QOTUSR_CREATE_TIMELINE`. Any result that is not negative counts as a new timeline. -/
def VirtHost.create (s : VirtHost) (guest : Nat) (msg : QotVirtmsg) (copy : UserCopy)
    (svc : CreateServices) : Option VirtHost :=
  (s.kernel.createTimeline msg.info copy svc).bind fun (retval, info, kernel) =>
    let s := { s with kernel := kernel }
    let made := { msg with info := info }
    if retval < 0 then some (s.reply guest made false) else s.takeSlot guest made

/-- The binding the daemon passes to the calls on a timeline. -/
def daemonBinding (me : Int32) (msg : QotVirtmsg) : QotBinding := ⟨msg.demand, me⟩

/-- `TIMELINE_BIND_JOIN`. The slot stays taken if it fails. -/
def VirtHost.join (me : Int32) (s : VirtHost) (guest : Nat) (msg : QotVirtmsg)
    (opened copied alloc copiedBack : Bool) : VirtHost :=
  let msgb := if copied then some (daemonBinding me msg) else none
  match if opened then s.kernel.ioctl msg.info.index fun tl => timelineBindJoin tl me msgb alloc
    else none with
  | none => s.reply guest msg false
  | some kernel => { s with kernel := kernel }.reply guest msg copiedBack

/-- `TIMELINE_BIND_UPDATE`. -/
def VirtHost.update (me : Int32) (s : VirtHost) (guest : Nat) (msg : QotVirtmsg)
    (opened copied : Bool) : VirtHost :=
  let msgb := if copied then some (daemonBinding me msg) else none
  match if opened then s.kernel.ioctl msg.info.index fun tl => timelineBindUpdate tl me msgb
    else none with
  | none => s.reply guest msg false
  | some kernel => { s with kernel := kernel }.reply guest msg true

/-- `TIMELINE_BIND_LEAVE`. The daemon goes on to destroy the timeline whether it fails or not. -/
def VirtHost.leave (me : Int32) (s : VirtHost) (guest : Nat) (msg : QotVirtmsg)
    (opened copied : Bool) : VirtHost :=
  match if opened then s.kernel.ioctl msg.info.index fun tl => timelineBindLeave tl me copied
    else none with
  | none => { s with pc := .destroying guest msg false }
  | some kernel => { s with kernel := kernel, pc := .destroying guest msg true }

/-- `QOTUSR_DESTROY_TIMELINE`. The slot is freed unless the result is negative, which a refusal is
not. -/
def VirtHost.destroy (s : VirtHost) (guest : Nat) (msg : QotVirtmsg) (ok copied : Bool) :
    VirtHost :=
  let (retval, kernel) := s.kernel.destroyTimeline msg.info copied
  let s := { s with kernel := kernel }
  if retval < 0 then s.reply guest msg false
  else
    { s with
      tlCount := if s.tlCount > 0 then s.tlCount - 1 else s.tlCount
      vtimeline := removeTimelineFromList s.vtimeline msg.info }.reply guest msg ok

/-- What the other programs of the host do. -/
inductive AppOp where
  | createTimeline (arg : QotTimeline) (copy : UserCopy) (svc : CreateServices)
  | removeTimeline (name : CName) (adminFlag : Bool)
  | bindJoin (index pid : Int32) (msgb : Option QotBinding) (alloc : Bool)
  | bindLeave (index pid : Int32) (copied : Bool)
  | bindUpdate (index pid : Int32) (msgb : Option QotBinding)

/-- A call by another process than the daemon. -/
def HostKernel.appIoctl (me : Int32) (k : HostKernel) (index pid : Int32)
    (call : BindingTable → Option BindingTable) : Option HostKernel :=
  if pid = me then none else some ((k.ioctl index call).getD k)

def HostKernel.appStep (me : Int32) (k : HostKernel) : AppOp → Option HostKernel
  | .createTimeline arg copy svc => (k.createTimeline arg copy svc).map fun r => r.2.2
  | .removeTimeline name adminFlag => some (k.qotTimelineRemove name adminFlag).2
  | .bindJoin index pid msgb alloc =>
    k.appIoctl me index pid fun tl => timelineBindJoin tl pid msgb alloc
  | .bindLeave index pid copied =>
    k.appIoctl me index pid fun tl => timelineBindLeave tl pid copied
  | .bindUpdate index pid msgb => k.appIoctl me index pid fun tl => timelineBindUpdate tl pid msgb

/-- What can happen on the host: a message arrives, the daemon makes the call it is at, or another
program does something. The arguments are what the kernel answers with. -/
inductive DaemonOp where
  | receive (guest : Nat) (msg : QotVirtmsg) (copy : UserCopy)
  | create (copy : UserCopy) (svc : CreateServices)
  | join (opened copied alloc copiedBack : Bool)
  | update (opened copied : Bool)
  | leave (opened copied : Bool)
  | destroy (copied : Bool)
  | app (op : AppOp)

/-- One step of the host, whose daemon is process `me`. `none` where the daemon is not at that call,
or where what it does is undefined. -/
def hostStep (me : Int32) (s : VirtHost) (op : DaemonOp) : Option VirtHost :=
  match op, s.pc with
  | .receive guest msg copy, .idle => s.receive guest msg copy
  | .create copy svc, .creating guest msg => s.create guest msg copy svc
  | .join opened copied alloc copiedBack, .joining guest msg =>
    some (s.join me guest msg opened copied alloc copiedBack)
  | .update opened copied, .updating guest msg => some (s.update me guest msg opened copied)
  | .leave opened copied, .leaving guest msg => some (s.leave me guest msg opened copied)
  | .destroy copied, .destroying guest msg ok => some (s.destroy guest msg ok copied)
  | .app op, _ => (s.kernel.appStep me op).map fun kernel => { s with kernel := kernel }
  | _, _ => none

end Qot
