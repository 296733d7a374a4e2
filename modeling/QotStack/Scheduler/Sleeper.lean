import Mathlib.Data.List.Nodup
import QotStack.Lib.OrderedInsert
import QotStack.Types.Time

/-!
# QotStack — sleepers (`qot_scheduler.c`)

A sleeper is a node of a timeline's event tree: a task blocked until an expiry, or a periodic timer
that signals its process and queues itself again. The tree is ordered by expiry and modelled by its
in-order traversal; `addr` is the address of the node, by which bindings refer to a timer.

`qotSleeperWakeup` says what becomes of one sleeper when its expiry has passed; what it does to the
tree is left to the loops that call it, since these have already moved on to the next node.
-/

namespace Qot

open OrderedInsert

structure QotTimer where
  startOffset : Timepoint
  period : Timelength
  count : Int32
  deriving DecidableEq, Repr

/-- A sleeping task or a periodic timer (`struct timeline_sleeper`). `task` says whether the
pointer to the task is still set. -/
structure TimelineSleeper where
  addr : Nat
  task : Bool
  pid : Int32
  sleeperActive : Bool
  qotExpires : Timepoint
  periodicTimerFlag : Bool
  timer : QotTimer
  timerCounts : Int32
  deriving DecidableEq, Repr

def qotTimelineEventAdd (events : List TimelineSleeper) (sleeper : TimelineSleeper) :
    List TimelineSleeper :=
  insertBefore (fun this => timepointCmp this.qotExpires sleeper.qotExpires < 0) sleeper events

def eventErase (events : List TimelineSleeper) (addr : Nat) : List TimelineSleeper :=
  events.filter fun s => s.addr ≠ addr

/-- What becomes of a sleeper that is woken. -/
inductive WakeOutcome where
  /-- A periodic timer goes back into the tree. -/
  | requeued (sleeper : TimelineSleeper)
  /-- A periodic timer is done, or its process is gone: it is taken off the tree and freed, and the
  binding of its process forgets it. -/
  | released
  /-- A blocked task is woken; its node stays in the tree until the task takes it off. -/
  | kept (sleeper : TimelineSleeper)
  deriving DecidableEq, Repr

def TimelineSleeper.nextRelease (sleeper : TimelineSleeper) : TimelineSleeper :=
  { sleeper with
    timerCounts := sleeper.timerCounts + 1
    qotExpires := timepointAdd sleeper.qotExpires sleeper.timer.period }

def TimelineSleeper.woken (sleeper : TimelineSleeper) : TimelineSleeper :=
  { sleeper with task := false, sleeperActive := false }

/-- Wakes up (for blocking waits) or signals (for timers) a task. `alive` is whether the process id
still belongs to a task. -/
def qotSleeperWakeup (alive : Bool) (sleeper : TimelineSleeper) : WakeOutcome :=
  if sleeper.periodicTimerFlag then
    if alive then
      if sleeper.timerCounts < sleeper.timer.count ∨ sleeper.timer.count = 0 then
        .requeued sleeper.nextRelease
      else .released
    else .released
  else if sleeper.sleeperActive then .kept sleeper.woken
  else .kept sleeper

def qotInitSleeper (addr : Nat) (pid : Int32) (expires : Timepoint) : TimelineSleeper where
  addr := addr
  task := true
  pid := pid
  sleeperActive := true
  qotExpires := expires
  periodicTimerFlag := false
  timer := ⟨⟨0, 0⟩, ⟨0, 0⟩, 0⟩
  timerCounts := 0

/-- The `abs` that `timepoint_diff` is compiled with: the one on `int` (C library; kernel where a
`long` has 32 bits) or one as wide as its argument. -/
inductive AbsWidth where
  | int
  | wide
  deriving DecidableEq, Repr

def absSec (w : AbsWidth) (sec : Int64) : UInt64 :=
  match w with
  | .int =>
    let sec := sec.toInt32
    (if sec < 0 then -sec else sec).toInt64.toUInt64
  | .wide => (if sec < 0 then -sec else sec).toUInt64

/-- Get the difference between two timepoints as a timelength, field by field. -/
def timepointDiffWith (w : AbsWidth) (t1 t2 : Timepoint) : Timelength :=
  ⟨absSec w (t1.sec - t2.sec),
    if t2.asec > t1.asec then t2.asec - t1.asec else t1.asec - t2.asec⟩

/-- When a periodic activity is due next: at its start offset, or at the next whole number of
periods after it. The kernel and the libraries share the computation. `none` is the division by a
zero period. -/
def nextPeriod (w : AbsWidth) (period : Timelength) (startOffset now : Timepoint) :
    Option Timepoint :=
  if timepointCmp startOffset now < 0 then some startOffset
  else
    let elapsedNs := tlToNsec (timepointDiffWith w now startOffset)
    let periodNs := tlToNsec period
    if periodNs = 0 then none
    else
      -- an incomplete period counts as a whole one
      let numPeriods :=
        if elapsedNs % periodNs ≠ 0 then elapsedNs / periodNs + 1 else elapsedNs / periodNs
      some (timepointAdd startOffset (tlFromNsec (periodNs * numPeriods)))

/-- `qot_init_timer_sleeper` with either `abs`. -/
def qotInitTimerSleeperWith (w : AbsWidth) (addr : Nat) (pid : Int32) (timer : QotTimer)
    (currentTimelineTime : Timepoint) : Option TimelineSleeper :=
  (nextPeriod w timer.period timer.startOffset currentTimelineTime).map fun expires =>
    { addr := addr
      task := true
      pid := pid
      sleeperActive := true
      qotExpires := expires
      periodicTimerFlag := true
      timer := timer
      timerCounts := 1 }

/-- `qot_init_timer_sleeper` of a kernel whose `long` has 64 bits, which the scheduler modules
model. -/
def qotInitTimerSleeper : Nat → Int32 → QotTimer → Timepoint → Option TimelineSleeper :=
  qotInitTimerSleeperWith .wide

/-! ## What the tree holds -/

variable {events : List TimelineSleeper} {s t : TimelineSleeper}

@[simp] theorem mem_qotTimelineEventAdd : t ∈ qotTimelineEventAdd events s ↔ t = s ∨ t ∈ events :=
  mem_insertBefore _ s

@[simp] theorem mem_eventErase {addr : Nat} :
    t ∈ eventErase events addr ↔ t ∈ events ∧ t.addr ≠ addr := by
  simp [eventErase]

/-- Everything a wake-up can come to, with what decides it. -/
inductive Wakes (s : TimelineSleeper) : WakeOutcome → Prop where
  | requeued (periodic : s.periodicTimerFlag = true) : Wakes s (.requeued s.nextRelease)
  | released (periodic : s.periodicTimerFlag = true) : Wakes s .released
  | woken (blocking : s.periodicTimerFlag = false) : Wakes s (.kept s.woken)
  | passed (blocking : s.periodicTimerFlag = false) (inactive : s.sleeperActive = false) :
    Wakes s (.kept s)

theorem wakes_qotSleeperWakeup (alive : Bool) (s : TimelineSleeper) :
    Wakes s (qotSleeperWakeup alive s) := by
  fun_cases qotSleeperWakeup alive s
  · next hper _ _ => exact .requeued hper
  · next hper _ _ => exact .released hper
  · next hper _ => exact .released hper
  · next hper _ => exact .woken (by simpa using hper)
  · next hper hactive => exact .passed (by simpa using hper) (by simpa using hactive)

theorem wakes_of_eq {alive : Bool} {o : WakeOutcome} (h : qotSleeperWakeup alive s = o) :
    Wakes s o :=
  h ▸ wakes_qotSleeperWakeup alive s

def addrs (events : List TimelineSleeper) : List Nat := events.map (·.addr)

theorem eventAdd_perm (events : List TimelineSleeper) (s : TimelineSleeper) :
    (qotTimelineEventAdd events s).Perm (s :: events) :=
  insertBefore_perm _ s events

theorem addrs_eventAdd_perm (events : List TimelineSleeper) (s : TimelineSleeper) :
    (addrs (qotTimelineEventAdd events s)).Perm (s.addr :: addrs events) :=
  (eventAdd_perm events s).map _

theorem addrs_nodup_eventErase (h : (addrs events).Nodup) (addr : Nat) :
    (addrs (eventErase events addr)).Nodup :=
  h.sublist (List.filter_sublist.map _)

theorem qotInitTimerSleeper_fields {addr : Nat} {pid : Int32} {timer : QotTimer} {now : Timepoint}
    (h : qotInitTimerSleeper addr pid timer now = some t) :
    t.addr = addr ∧ t.pid = pid ∧ t.periodicTimerFlag = true := by
  obtain ⟨_, _, rfl⟩ := Option.map_eq_some_iff.mp h
  exact ⟨rfl, rfl, rfl⟩

theorem qotInitTimerSleeper_timer {addr : Nat} {pid : Int32} {timer : QotTimer} {now : Timepoint}
    (h : qotInitTimerSleeper addr pid timer now = some t) :
    t.timer = timer ∧ t.timerCounts = 1 := by
  obtain ⟨_, _, rfl⟩ := Option.map_eq_some_iff.mp h
  exact ⟨rfl, rfl⟩

/-- Below the number of signals requested the counter does not wrap. -/
theorem nextRelease_counts (h : t.timerCounts < t.timer.count) :
    t.nextRelease.timerCounts.toInt = t.timerCounts.toInt + 1 := by
  have hlt := Int32.lt_iff_toInt_lt.mp h
  have hmax := t.timer.count.toInt_lt
  have hmin := t.timerCounts.le_toInt
  show (t.timerCounts + 1).toInt = _
  rw [Int32.toInt_add, MachineInt.bmod_eq_wrap32, show (1 : Int32).toInt = 1 from rfl]
  unfold MachineInt.wrap32
  omega

theorem eventErase_eventAdd (h : s.addr ∉ addrs events) :
    eventErase (qotTimelineEventAdd events s) s.addr = events := by
  have hkeep : ∀ l : List TimelineSleeper, l ⊆ events → eventErase l s.addr = l := by
    intro l hl
    refine List.filter_eq_self.mpr fun t ht => ?_
    have hne : t.addr ≠ s.addr := fun he => h (he ▸ List.mem_map_of_mem (hl ht))
    simpa using hne
  rw [qotTimelineEventAdd, insertBefore_eq, eventErase, List.filter_append,
    List.filter_cons_of_neg (by simp)]
  have hpre := hkeep _ (List.takeWhile_subset
    (l := events) fun y => !decide (timepointCmp y.qotExpires s.qotExpires < 0))
  have hpost := hkeep _ (List.dropWhile_subset
    (l := events) fun y => !decide (timepointCmp y.qotExpires s.qotExpires < 0))
  rw [eventErase] at hpre hpost
  rw [hpre, hpost, List.takeWhile_append_dropWhile]

theorem eq_of_addr_eq (h : (addrs events).Nodup) (hs : s ∈ events) (ht : t ∈ events)
    (heq : s.addr = t.addr) : s = t :=
  List.inj_on_of_nodup_map h hs ht heq

end Qot
