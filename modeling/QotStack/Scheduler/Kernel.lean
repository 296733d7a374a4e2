import QotStack.Clock.Expiry
import QotStack.Clock.Discipline
import QotStack.Scheduler.Driver
import QotStack.Scheduler.Wake

/-!
# QotStack — the scheduler (`qot_scheduler.c`)

The state couples what the software believes with what the hardware does: `nextInterruptCallback`
is the variable the scheduler compares new expiries with, `armed` the core time the driver's
interrupt is really armed for. The paths embedded here are

* `qotSleeperStartExpires` — a new expiry reprograms the interrupt if it comes first;
* `schedulerInterfaceInterrupt` — the interrupt wakes sleepers, looks for the next event and
  reprograms, up to three times, then by force;
* `qotSchedulerUpdate` — a discipline step wakes sleepers of its timeline and reprograms by force
  if its next event now comes first.

Every clock reading a path makes is an argument, in the order in which it is made.
-/

namespace Qot

open MachineInt

structure Timeline where
  type : QotTimelineType
  impl : TlTranslation
  events : List TimelineSleeper
  deriving DecidableEq, Repr

/-- The timelines in the order of their tree, the global clock, the scheduler's variable, the
hardware, and the core time reached. -/
structure Kernel where
  driver : Driver
  timelines : List Timeline
  clkglParams : TlTranslation
  nextInterruptCallback : Timepoint
  armed : Option Int
  now : Int64
  deriving DecidableEq

def maxTimepoint : Timepoint := ⟨9223372036, 0⟩

def Timeline.core (tl : Timeline) (clkglParams : TlTranslation) (expires : Timepoint) : Timepoint :=
  qotRemoteToCore tl.type tl.impl clkglParams expires

def Timeline.coreNs (tl : Timeline) (clkglParams : TlTranslation) (expires : Timepoint) : Int64 :=
  tpToNsec (tl.core clkglParams expires)

theorem Timeline.core_eq (tl : Timeline) (clkglParams : TlTranslation) (expires : Timepoint) :
    tl.core clkglParams expires = tpFromNsec (tl.coreNs clkglParams expires) := by
  rw [Timeline.coreNs, Timeline.core, qotRemoteToCore_eq, tpToNsec_tpFromNsec]

theorem Timeline.coreNs_congr {tl tl' : Timeline} (htype : tl'.type = tl.type)
    (himpl : tl'.impl = tl.impl) (clkglParams : TlTranslation) (e : Timepoint) :
    tl'.coreNs clkglParams e = tl.coreNs clkglParams e := by
  rw [Timeline.coreNs, Timeline.core, htype, himpl, Timeline.coreNs, Timeline.core]

theorem expiredOnCore_iff_coreNs (tl : Timeline) (clkglParams : TlTranslation) (c : Int64)
    (e : Timepoint) :
    expiredOnCore tl.type tl.impl clkglParams (tpFromNsec c) e
      ↔ (tl.coreNs clkglParams e).toInt < c.toInt := by
  rw [← timepointCmp_tpFromNsec, ← Timeline.core_eq]
  rfl

def Kernel.setEvents (k : Kernel) (i : Nat) (tl : Timeline) (events : List TimelineSleeper) :
    Kernel :=
  { k with timelines := k.timelines.set i { tl with events := events } }

@[simp] theorem Kernel.timelines_setEvents (k : Kernel) (i : Nat) (tl : Timeline)
    (events : List TimelineSleeper) :
    (k.setEvents i tl events).timelines = k.timelines.set i { tl with events := events } :=
  rfl

@[simp] theorem Kernel.setEvents_setEvents (k : Kernel) (i : Nat) (tl : Timeline)
    (events events' : List TimelineSleeper) :
    (k.setEvents i tl events).setEvents i tl events' = k.setEvents i tl events' := by
  simp [Kernel.setEvents]

theorem Kernel.set_self {k : Kernel} {i : Nat} {tl : Timeline} (htl : k.timelines[i]? = some tl) :
    k.timelines.set i tl = k.timelines := by
  obtain ⟨hlt, rfl⟩ := List.getElem?_eq_some_iff.mp htl
  exact List.set_getElem_self hlt

/-! ## A new expiry -/

/-- The readings of `qot_sleeper_start_expires`: the core time, the driver's clock, and the core
time when the call is over. -/
structure StartReadings where
  timeNow : Int64
  program : Int64
  finish : Int64

/-- If the new expiry comes before all others, reprogram the interrupt. The flag is whether the
call returns zero. -/
def qotSleeperStartExpires (k : Kernel) (sleeperActive : Bool) (coreTimeExpiry : Timepoint)
    (r : StartReadings) : Bool × Kernel :=
  if timepointCmp coreTimeExpiry (tpFromNsec r.timeNow) > 0 then (false, k)
  else if timepointCmp coreTimeExpiry k.nextInterruptCallback > 0 ∧ sleeperActive then
    match programSchedInterrupt k.driver r.program coreTimeExpiry false with
    | none => (false, k)
    | some a => (true, { k with armed := some a, nextInterruptCallback := coreTimeExpiry })
  else (true, k)

/-- Queue a sleeper and start its expiry. If that fails the node is taken off again: by
`qot_attosleep` as it leaves its loop, by `qot_timer_create` before it frees it. -/
def startSleeper (k : Kernel) (i : Nat) (tl : Timeline) (sleeper : TimelineSleeper)
    (r : StartReadings) : Kernel :=
  let events := qotTimelineEventAdd tl.events sleeper
  let started := qotSleeperStartExpires (k.setEvents i tl events) true
    (tl.core k.clkglParams sleeper.qotExpires) r
  if started.1 then { started.2 with now := r.finish }
  else { started.2.setEvents i tl (eventErase events sleeper.addr) with now := r.finish }

/-- `qot_attosleep` up to the point where the task sleeps, or all of it if the expiry fails to
start. -/
def qotAttosleep (k : Kernel) (i addr : Nat) (pid : Int32) (expires : Timepoint)
    (r : StartReadings) : Option Kernel :=
  k.timelines[i]?.bind fun tl =>
    if addr ∈ addrs tl.events then none
    else some (startSleeper k i tl (qotInitSleeper addr pid expires) r)

/-- A task of `qot_attosleep` runs again: it leaves the loop if it was woken, else it starts its
expiry again, with the core expiry it computed at first, and leaves if that fails. The flag is
whether it leaves. -/
def qotAttosleepResume (k : Kernel) (i addr : Nat) (coreTimeExpiry : Int64) (r : StartReadings) :
    Option (Bool × Kernel) :=
  k.timelines[i]?.bind fun tl =>
    (tl.events.find? fun t => t.addr = addr ∧ t.periodicTimerFlag = false).map fun t =>
      let leave (k : Kernel) : Bool × Kernel :=
        (true, { k.setEvents i tl (eventErase tl.events addr) with now := r.finish })
      if t.task then
        -- the timeline may have been disciplined since: the expiry is not converted again
        let started := qotSleeperStartExpires k t.sleeperActive (tpFromNsec coreTimeExpiry) r
        if started.1 then (false, { started.2 with now := r.finish }) else leave started.2
      else leave k

/-- `qot_timer_create`; `core` is the reading from which the first release is computed. A zero
period faults. -/
def qotTimerCreate (k : Kernel) (i addr : Nat) (pid : Int32) (timer : QotTimer) (core : Int64)
    (r : StartReadings) : Option Kernel :=
  k.timelines[i]?.bind fun tl =>
    if addr ∈ addrs tl.events then none
    else
      (qotInitTimerSleeper addr pid timer
        (qotCoreToRemote tl.type tl.impl k.clkglParams (tpFromNsec core))).map fun sleeper =>
          startSleeper k i tl sleeper r

/-! ## The interrupt -/

/-- Wake the sleepers of one timeline, by the timeline-domain test. -/
def wakeTimeline (clkglParams : TlTranslation) (core : Int64) (alive : Int32 → Bool) (fuel : Nat)
    (tl : Timeline) : Option Timeline :=
  let expired (e : Timepoint) : Bool :=
    expiredOnTimeline tl.type tl.impl clkglParams (tpFromNsec core) e
  (wakeLoop expired alive fuel [] tl.events).map fun loop =>
    { tl with events := loop.1 ++ loop.2 }

def wakeTimelines (clkglParams : TlTranslation) (core : Int64) (alive : Int32 → Bool)
    (fuel : Nat) : List Timeline → Option (List Timeline)
  | [] => some []
  | tl :: tls =>
    (wakeTimeline clkglParams core alive fuel tl).bind fun tl' =>
      (wakeTimelines clkglParams core alive fuel tls).map fun tls' => tl' :: tls'

/-- The earlier of the best candidate so far and the first active sleeper of a timeline. -/
def nextEventStep (clkglParams : TlTranslation) (expiresNext : Timepoint) (tl : Timeline) :
    Timepoint :=
  match tl.events.find? fun t => t.sleeperActive with
  | none => expiresNext
  | some t =>
    let coreExpires := tl.core clkglParams t.qotExpires
    if timepointCmp coreExpires expiresNext > 0 then coreExpires else expiresNext

def clampSec (t : Timepoint) : Timepoint := if t.sec < 0 then { t with sec := 0 } else t

def qotGetNextEvent (clkglParams : TlTranslation) (timelines : List Timeline) : Timepoint :=
  clampSec (timelines.foldl (nextEventStep clkglParams) maxTimepoint)

/-- One round of the interrupt: the core time it wakes by, and the driver's clock. -/
structure Attempt where
  core : Int64
  program : Int64

/-- The rounds of the interrupt, and after the last the programming by force, whatever it returns.
The flag is whether force was needed. -/
def interruptRounds (alive : Int32 → Bool) (fuel : Nat) (forced : Int64) :
    List Attempt → Timepoint → Kernel → Option (Bool × Kernel)
  | [], nextExpires, k =>
    -- the variable is set even if the driver refuses
    some (true, { k with
      armed := (programSchedInterrupt k.driver forced nextExpires true).or k.armed
      nextInterruptCallback := nextExpires })
  | a :: as, _, k =>
    (wakeTimelines k.clkglParams a.core alive fuel k.timelines).bind fun timelines =>
      let k := { k with timelines := timelines }
      let nextExpires := qotGetNextEvent k.clkglParams timelines
      match programSchedInterrupt k.driver a.program nextExpires false with
      | some t => some (false, { k with armed := some t, nextInterruptCallback := nextExpires })
      | none => interruptRounds alive fuel forced as nextExpires k

structure InterruptReadings where
  first : Attempt
  second : Attempt
  third : Attempt
  forced : Int64
  finish : Int64

/-- Interrupt callback to wake up and reprogram the interrupt timer. The interrupt that fired is no
longer armed. -/
def schedulerInterfaceInterrupt (k : Kernel) (r : InterruptReadings) (alive : Int32 → Bool)
    (fuel : Nat) : Option (Bool × Kernel) :=
  (interruptRounds alive fuel r.forced [r.first, r.second, r.third] maxTimepoint
    { k with armed := none }).map fun result => (result.1, { result.2 with now := r.finish })

/-! ## Discipline -/

structure UpdateReadings where
  core : Int64
  second : Int64
  program : Int64
  finish : Int64

/-- The candidate of the update path: the first sleeper that has not expired, if it comes before
the interrupt. -/
def updateCandidate (k : Kernel) (tl : Timeline) (rest : List TimelineSleeper) : Timepoint :=
  match rest with
  | [] => k.nextInterruptCallback
  | f :: _ =>
    let coreExpires := tl.core k.clkglParams f.qotExpires
    if timepointCmp coreExpires k.nextInterruptCallback > 0 then coreExpires
    else k.nextInterruptCallback

/-- Updates timeline nodes waiting on a queue when a time change happens. -/
def qotSchedulerUpdate (k : Kernel) (i : Nat) (tl : Timeline) (r : UpdateReadings)
    (alive : Int32 → Bool) (fuel : Nat) : Option Kernel :=
  let expired (e : Timepoint) : Bool :=
    expiredOnCore tl.type tl.impl k.clkglParams (tpFromNsec r.core) e
  (wakeLoop expired alive fuel [] tl.events).map fun loop =>
    let k' := k.setEvents i tl (loop.1 ++ loop.2)
    -- the candidate is the node the loop stopped at, active or not
    let expiresNext := clampSec (updateCandidate k tl loop.2)
    if timepointCmp (tpFromNsec r.second) expiresNext > 0
        ∧ timepointCmp expiresNext k.nextInterruptCallback > 0 then
      match programSchedInterrupt k.driver r.program expiresNext true with
      | none => k'
      | some a => { k' with armed := some a, nextInterruptCallback := expiresNext }
    else k'

/-- Change the mapping a timeline is read through. `reading` is the clock the operation reads. -/
def applyDiscipline (k : Kernel) (i : Nat) (tl : Timeline) (op : ClockOp) (reading : Int64) :
    Kernel :=
  match tl.type with
  | .qotTimelineLocal =>
    { k with timelines :=
        k.timelines.set i { tl with impl := clockApply .qotTimelineLocal tl.impl reading op } }
  | .qotTimelineGlobal =>
    { k with clkglParams := clockApply .qotTimelineGlobal k.clkglParams reading op }

/-- Whether the operation goes on to update the scheduler. `qot_timeline_gl_chdev_settime` returns
before it does: a stray semicolon ends its error check. -/
def updatesScheduler (type : QotTimelineType) (op : ClockOp) : Bool :=
  match type, op with
  | _, .gettime => false
  | .qotTimelineGlobal, .settime _ => false
  | _, _ => true

def discipline (k : Kernel) (i : Nat) (op : ClockOp) (reading : Int64) (r : UpdateReadings)
    (alive : Int32 → Bool) (fuel : Nat) : Option Kernel :=
  k.timelines[i]?.bind fun tl =>
    let k' := applyDiscipline k i tl op reading
    if updatesScheduler tl.type op then
      k'.timelines[i]?.bind fun tl' =>
        (qotSchedulerUpdate k' i tl' r alive fuel).map fun k => { k with now := r.finish }
    else some { k' with now := r.finish }

/-! ## What each path does -/

def Kernel.callbackNs (k : Kernel) : Int := (tpToNsec k.nextInterruptCallback).toInt

def maxNs : Int64 := 9223372036000000000

theorem maxTimepoint_eq : maxTimepoint = tpFromNsec maxNs := by decide

theorem qotSleeperStartExpires_frame (k : Kernel) (active : Bool) (e : Timepoint)
    (r : StartReadings) :
    (qotSleeperStartExpires k active e r).2.timelines = k.timelines
      ∧ (qotSleeperStartExpires k active e r).2.clkglParams = k.clkglParams
      ∧ (qotSleeperStartExpires k active e r).2.driver = k.driver
      ∧ ((qotSleeperStartExpires k active e r).1 = false →
        (qotSleeperStartExpires k active e r).2 = k) := by
  unfold qotSleeperStartExpires
  split
  · exact ⟨rfl, rfl, rfl, fun _ => rfl⟩
  · split
    · cases programSchedInterrupt k.driver r.program e false with
      | none => exact ⟨rfl, rfl, rfl, fun _ => rfl⟩
      | some a => exact ⟨rfl, rfl, rfl, nofun⟩
    · exact ⟨rfl, rfl, rfl, nofun⟩

variable {k k' : Kernel} {alive : Int32 → Bool} {fuel i : Nat} {r : UpdateReadings} {now : Int64}

/-- It fails only on an expiry that the minimum delta does not leave in the future. -/
theorem qotSleeperStartExpires_false {active : Bool} {x : Int64} {r : StartReadings}
    (hnow : 0 ≤ r.timeNow.toInt) (hprogram : r.timeNow.toInt ≤ r.program.toInt)
    (h : (qotSleeperStartExpires k active (tpFromNsec x) r).1 = false) :
    x.toInt ≤ r.program.toInt + k.driver.minDelta := by
  have hmin := k.driver.minDelta_nonneg
  simp only [qotSleeperStartExpires, timepointCmp_tpFromNsec] at h
  split at h
  · omega
  · split at h
    · rcases programSchedInterrupt_unforced (d := k.driver) (k := x)
        (show 0 ≤ r.program.toInt by omega) (by omega) with ⟨hle, -⟩ | ⟨-, a, ha, -⟩
      · exact hle
      · simp [ha] at h
    · simp at h

section Start

variable {k : Kernel} {n x : Int64} (hcb : k.nextInterruptCallback = tpFromNsec n)

include hcb

theorem callbackNs_eq : k.callbackNs = n.toInt := by
  rw [Kernel.callbackNs, hcb, tpToNsec_tpFromNsec]

theorem cmp_callback_iff :
    timepointCmp (tpFromNsec x) k.nextInterruptCallback > 0 ↔ x.toInt < k.callbackNs := by
  rw [callbackNs_eq hcb, hcb, timepointCmp_tpFromNsec]

variable {r : StartReadings}

/-- Starting an expiry fails, leaves everything as it is because another comes first, or arms the
interrupt for it, up to the lateness of the driver. -/
theorem qotSleeperStartExpires_cases (active : Bool) (hnow : 0 ≤ r.timeNow.toInt)
    (hprogram : 0 ≤ r.program.toInt) :
    qotSleeperStartExpires k active (tpFromNsec x) r = (false, k)
      ∨ (qotSleeperStartExpires k active (tpFromNsec x) r = (true, k)
        ∧ (k.callbackNs ≤ x.toInt ∨ active = false))
      ∨ ∃ a, qotSleeperStartExpires k active (tpFromNsec x) r
          = (true, { k with armed := some a, nextInterruptCallback := tpFromNsec x })
        ∧ a ≤ x.toInt + k.driver.lateness ∧ x.toInt < k.callbackNs := by
  simp only [qotSleeperStartExpires, cmp_callback_iff hcb, timepointCmp_tpFromNsec]
  by_cases hpast : x.toInt < r.timeNow.toInt
  · exact Or.inl (if_pos hpast)
  rw [if_neg hpast]
  by_cases hfirst : x.toInt < k.callbackNs ∧ active = true
  · rw [if_pos hfirst]
    rcases programSchedInterrupt_unforced (d := k.driver) (k := x) hprogram (by omega) with
      ⟨-, hnone⟩ | ⟨-, a, ha, hle⟩
    · exact Or.inl (by rw [hnone])
    · exact Or.inr (Or.inr ⟨a, by rw [ha], hle, hfirst.1⟩)
  · refine Or.inr (Or.inl ⟨if_neg hfirst, ?_⟩)
    by_cases hx : x.toInt < k.callbackNs
    · exact Or.inr (by simpa [hx] using hfirst)
    · exact Or.inl (not_lt.mp hx)

theorem startSleeper_cases {i : Nat} {tl : Timeline} {s : TimelineSleeper}
    (haddr : s.addr ∉ addrs tl.events) (hnow : 0 ≤ r.timeNow.toInt) (hprogram : 0 ≤ r.program.toInt)
    (hx : x = tl.coreNs k.clkglParams s.qotExpires) :
    startSleeper k i tl s r = { k.setEvents i tl tl.events with now := r.finish }
      ∨ (startSleeper k i tl s r
          = { k.setEvents i tl (qotTimelineEventAdd tl.events s) with now := r.finish }
        ∧ k.callbackNs ≤ x.toInt)
      ∨ ∃ a, startSleeper k i tl s r
          = { k.setEvents i tl (qotTimelineEventAdd tl.events s) with
              armed := some a, nextInterruptCallback := tpFromNsec x, now := r.finish }
        ∧ a ≤ x.toInt + k.driver.lateness ∧ x.toInt < k.callbackNs := by
  rw [startSleeper, Timeline.core_eq, ← hx]
  rcases qotSleeperStartExpires_cases (k := k.setEvents i tl (qotTimelineEventAdd tl.events s))
      (x := x) hcb true hnow hprogram with
    hres | ⟨hres, hlater⟩ | ⟨a, hres, ha, hlt⟩
  · -- the node goes off again
    left
    simp [hres, eventErase_eventAdd haddr]
  · exact Or.inr (Or.inl ⟨by simp [hres], hlater.resolve_right (by simp)⟩)
  · exact Or.inr (Or.inr ⟨a, by simp [hres], ha, hlt⟩)

end Start

/-- Raising the seconds to zero changes only a negative time, and then to less than a second. -/
theorem clampSec_tpFromNsec (x : Int64) :
    ∃ y : Int64, clampSec (tpFromNsec x) = tpFromNsec y ∧ 0 ≤ y.toInt
      ∧ (y = x ∨ (x.toInt < 0 ∧ y.toInt < 1000000000)) := by
  have hsec := tpFromNsec_sec x
  by_cases hneg : (tpFromNsec x).sec < 0
  · -- only the fraction is left, which the floor made a non-negative one
    have hlt : (tpFromNsec x).sec.toInt < 0 := Int64.lt_iff_toInt_lt.mp hneg
    have hfit : Fits64 (x.toInt % 1000000000) := by
      omega
    have hy : (Int64.ofInt (x.toInt % 1000000000)).toInt = x.toInt % 1000000000 := by
      rw [Int64.toInt_ofInt]
      exact (bmod_eq_wrap64 _).trans (wrap64_of_fits hfit)
    refine ⟨Int64.ofInt (x.toInt % 1000000000), ?_, by omega, Or.inr ⟨by omega, by omega⟩⟩
    rw [clampSec, if_pos hneg]
    have hasec := tpFromNsec_asec x
    have hsec' := tpFromNsec_sec (Int64.ofInt (x.toInt % 1000000000))
    have hasec' := tpFromNsec_asec (Int64.ofInt (x.toInt % 1000000000))
    rw [hy] at hsec' hasec'
    have h0 : (tpFromNsec (Int64.ofInt (x.toInt % 1000000000))).sec = 0 :=
      Int64.toInt_inj.mp (by rw [hsec', Int64.toInt_zero]; omega)
    have h1 : (tpFromNsec (Int64.ofInt (x.toInt % 1000000000))).asec = (tpFromNsec x).asec :=
      UInt64.toNat_inj.mp (by omega)
    rw [← h0, ← h1]
  · have hge : ¬ (tpFromNsec x).sec.toInt < 0 := fun h => hneg (Int64.lt_iff_toInt_lt.mpr h)
    exact ⟨x, if_neg hneg, by omega, Or.inl rfl⟩

/-! ## The next event

The loop over the timelines ends with the earliest of the time it starts with and the first active
sleepers: it is one of them, and none is earlier. -/

def Timeline.firstActive (tl : Timeline) : Option TimelineSleeper :=
  tl.events.find? fun t => t.sleeperActive

/-- One of the candidates of the loop. -/
def Candidate (clkglParams : TlTranslation) (timelines : List Timeline) (n₀ n : Int64) : Prop :=
  n = n₀ ∨ ∃ tl ∈ timelines, ∃ f, tl.firstActive = some f ∧ n = tl.coreNs clkglParams f.qotExpires

section NextEvent

variable {clkglParams : TlTranslation} {tl : Timeline} {f t : TimelineSleeper}

theorem firstActive_mem (h : tl.firstActive = some f) : f ∈ tl.events ∧ f.sleeperActive = true :=
  ⟨List.mem_of_find?_eq_some h, List.find?_some h⟩

/-- A tree with an active sleeper has a first one. -/
theorem exists_firstActive (ht : t ∈ tl.events)
    (hactive : t.sleeperActive = true) : ∃ f, tl.firstActive = some f := by
  cases hfirst : tl.firstActive with
  | some f => exact ⟨f, rfl⟩
  | none =>
    have := List.find?_eq_none.mp hfirst t ht
    contradiction

/-- In a tree that is in order no active sleeper comes before the first one. -/
theorem firstActive_rank_le (hsorted : EventsSorted tl.events) (hf : tl.firstActive = some f)
    (ht : t ∈ tl.events) (hactive : t.sleeperActive = true) :
    f.qotExpires.rank ≤ t.qotExpires.rank := by
  obtain ⟨-, before, after, hsplit, hbefore⟩ := List.find?_eq_some_iff_append.mp hf
  rw [hsplit] at ht
  rw [EventsSorted, hsplit] at hsorted
  rcases List.mem_append.mp ht with ht | ht
  · exact absurd hactive (by simpa using hbefore t ht)
  · rcases List.mem_cons.mp ht with rfl | ht
    · exact le_rfl
    · exact (List.pairwise_cons.mp (List.pairwise_append.mp hsorted).2.1).1 t ht

theorem nextEventStep_of_none (h : tl.firstActive = none) (e : Timepoint) :
    nextEventStep clkglParams e tl = e := by
  rw [Timeline.firstActive] at h
  rw [nextEventStep, h]

theorem nextEventStep_of_some (h : tl.firstActive = some f) (n₀ : Int64) :
    nextEventStep clkglParams (tpFromNsec n₀) tl
      = tpFromNsec (if (tl.coreNs clkglParams f.qotExpires).toInt < n₀.toInt
          then tl.coreNs clkglParams f.qotExpires else n₀) := by
  rw [Timeline.firstActive] at h
  rw [nextEventStep, h]
  simp only [Timeline.core_eq, timepointCmp_tpFromNsec]
  split <;> rfl

theorem foldl_nextEventStep_candidate (clkglParams : TlTranslation) (timelines : List Timeline)
    (n₀ : Int64) :
    ∃ n : Int64, timelines.foldl (nextEventStep clkglParams) (tpFromNsec n₀) = tpFromNsec n
      ∧ Candidate clkglParams timelines n₀ n
      ∧ ∀ m, Candidate clkglParams timelines n₀ m → n.toInt ≤ m.toInt := by
  induction timelines generalizing n₀ with
  | nil =>
    refine ⟨n₀, rfl, Or.inl rfl, ?_⟩
    rintro m (rfl | ⟨tl, htl, -⟩)
    · exact le_rfl
    · cases htl
  | cons tl tls ih =>
    -- the candidate after the first timeline: one of the two, and not after either
    obtain ⟨n₁, hstep, hn₁, hle₀, hle₁⟩ : ∃ n₁ : Int64,
        nextEventStep clkglParams (tpFromNsec n₀) tl = tpFromNsec n₁
          ∧ Candidate clkglParams [tl] n₀ n₁ ∧ n₁.toInt ≤ n₀.toInt
          ∧ ∀ f, tl.firstActive = some f →
            n₁.toInt ≤ (tl.coreNs clkglParams f.qotExpires).toInt := by
      cases hfirst : tl.firstActive with
      | none => exact ⟨n₀, nextEventStep_of_none hfirst _, Or.inl rfl, le_rfl, by simp⟩
      | some f =>
        refine ⟨_, nextEventStep_of_some hfirst n₀, ?_⟩
        split
        · next hlt =>
          exact ⟨Or.inr ⟨tl, List.mem_singleton_self tl, f, hfirst, rfl⟩, hlt.le, by simp⟩
        · next hge => exact ⟨Or.inl rfl, le_rfl, by simpa using hge⟩
    obtain ⟨n, hfold, hn, hle⟩ := ih n₁
    refine ⟨n, by rw [List.foldl_cons, hstep, hfold], ?_, ?_⟩
    · rcases hn with rfl | ⟨tl', htl', hf'⟩
      · rcases hn₁ with rfl | ⟨tl', htl', hf'⟩
        · exact Or.inl rfl
        · rw [List.mem_singleton.mp htl'] at hf'
          exact Or.inr ⟨tl, List.mem_cons_self, hf'⟩
      · exact Or.inr ⟨tl', List.mem_cons_of_mem _ htl', hf'⟩
    · have hn₁le : n.toInt ≤ n₁.toInt := hle n₁ (Or.inl rfl)
      rintro m (rfl | ⟨tl', htl', f', hf', rfl⟩)
      · exact hn₁le.trans hle₀
      · rcases List.mem_cons.mp htl' with rfl | htl'
        · exact hn₁le.trans (hle₁ f' hf')
        · exact hle _ (Or.inr ⟨tl', htl', f', hf', rfl⟩)

theorem qotGetNextEvent_candidate (clkglParams : TlTranslation) (timelines : List Timeline) :
    ∃ n : Int64, qotGetNextEvent clkglParams timelines = clampSec (tpFromNsec n)
      ∧ Candidate clkglParams timelines maxNs n
      ∧ ∀ m, Candidate clkglParams timelines maxNs m → n.toInt ≤ m.toInt := by
  obtain ⟨n, hfold, hn, hle⟩ := foldl_nextEventStep_candidate clkglParams timelines maxNs
  exact ⟨n, by rw [qotGetNextEvent, maxTimepoint_eq, hfold], hn, hle⟩

/-- In nanoseconds it is the earliest candidate, unless one is negative and was raised to the first
second. -/
theorem qotGetNextEvent_spec (clkglParams : TlTranslation) (timelines : List Timeline) :
    ∃ n : Int64, qotGetNextEvent clkglParams timelines = tpFromNsec n ∧ 0 ≤ n.toInt
      ∧ ((n.toInt < 1000000000 ∧ ∃ m, Candidate clkglParams timelines maxNs m ∧ m.toInt < 0)
        ∨ (Candidate clkglParams timelines maxNs n
          ∧ ∀ m, Candidate clkglParams timelines maxNs m → n.toInt ≤ m.toInt)) := by
  obtain ⟨n₁, hn₁, hcand, hle⟩ := qotGetNextEvent_candidate clkglParams timelines
  obtain ⟨n, hclamp, hnonneg, hn⟩ := clampSec_tpFromNsec n₁
  refine ⟨n, hn₁.trans hclamp, hnonneg, ?_⟩
  rcases hn with rfl | ⟨hneg, hsmall⟩
  · exact Or.inr ⟨hcand, hle⟩
  · exact Or.inl ⟨hsmall, n₁, hcand, hneg⟩

end NextEvent

/-! ## Rounds of waking -/

theorem getElem?_wakeTimelines {clkglParams : TlTranslation} {core : Int64}
    {tls tls' : List Timeline} (h : wakeTimelines clkglParams core alive fuel tls = some tls')
    {j : Nat} {tl' : Timeline} (hj : tls'[j]? = some tl') :
    ∃ tl d r, tls[j]? = some tl
      ∧ wakeLoop (fun e => expiredOnTimeline tl.type tl.impl clkglParams (tpFromNsec core) e)
        alive fuel [] tl.events = some (d, r)
      ∧ tl' = { tl with events := d ++ r } := by
  induction tls generalizing tls' j with
  | nil =>
    cases h
    simp at hj
  | cons tl tls ih =>
    obtain ⟨tl₁, htl₁, h⟩ := Option.bind_eq_some_iff.mp h
    obtain ⟨tls₁, htls₁, rfl⟩ := Option.map_eq_some_iff.mp h
    cases j with
    | zero =>
      cases hj
      obtain ⟨⟨d, r⟩, hloop, rfl⟩ := Option.map_eq_some_iff.mp htl₁
      exact ⟨tl, d, r, rfl, hloop, rfl⟩
    | succ j =>
      rw [List.getElem?_cons_succ] at hj
      exact ih htls₁ hj

/-- What every pass over the timelines preserves holds after the rounds of the interrupt. -/
theorem interruptRounds_induction {Q : List Timeline → Prop} {forced : Int64} {as : List Attempt}
    {nextExpires : Timepoint} {flag : Bool} (hwake : ∀ a ∈ as, ∀ tls tls', Q tls →
      wakeTimelines k.clkglParams a.core alive fuel tls = some tls' → Q tls') (hQ : Q k.timelines)
    (h : interruptRounds alive fuel forced as nextExpires k = some (flag, k')) :
    Q k'.timelines ∧ k'.driver = k.driver := by
  induction as generalizing k nextExpires with
  | nil =>
    simp only [interruptRounds] at h
    cases h
    exact ⟨hQ, rfl⟩
  | cons a as ih =>
    obtain ⟨tls, hpass, h⟩ := Option.bind_eq_some_iff.mp h
    have hQ' : Q tls := hwake a List.mem_cons_self _ _ hQ hpass
    simp only at h
    split at h
    · cases h
      exact ⟨hQ', rfl⟩
    · exact ih (k := { k with timelines := tls })
        (fun b hb => hwake b (List.mem_cons_of_mem _ hb)) hQ' h

/-- A task that runs again leaves, because it was woken or its expiry cannot be started, or its
expiry is started. -/
theorem qotAttosleepResume_cases {addr : Nat} {x : Int64} {r : StartReadings} {left : Bool}
    (h : qotAttosleepResume k i addr x r = some (left, k')) :
    ∃ tl, k.timelines[i]? = some tl ∧ ∃ t ∈ tl.events, t.addr = addr
      ∧ ((left = true ∧ k' = { k.setEvents i tl (eventErase tl.events addr) with now := r.finish }
          ∧ (t.task = false
            ∨ (qotSleeperStartExpires k t.sleeperActive (tpFromNsec x) r).1 = false))
        ∨ (left = false
          ∧ (qotSleeperStartExpires k t.sleeperActive (tpFromNsec x) r).1 = true
          ∧ k' = { (qotSleeperStartExpires k t.sleeperActive (tpFromNsec x) r).2 with
            now := r.finish })) := by
  obtain ⟨tl, htl, h⟩ := Option.bind_eq_some_iff.mp h
  obtain ⟨t, ht, h⟩ := Option.map_eq_some_iff.mp h
  have haddr := List.find?_some ht
  simp only [decide_eq_true_eq] at haddr
  refine ⟨tl, htl, t, List.mem_of_find?_eq_some ht, haddr.1, ?_⟩
  cases htask : t.task with
  | false =>
    simp only [htask, Bool.false_eq_true, if_false, Prod.mk.injEq] at h
    exact Or.inl ⟨h.1.symm, h.2.symm, Or.inl rfl⟩
  | true =>
    simp only [htask, if_true] at h
    cases hstart : (qotSleeperStartExpires k t.sleeperActive (tpFromNsec x) r).1 with
    | true =>
      simp only [hstart, if_true, Prod.mk.injEq] at h
      exact Or.inr ⟨h.1.symm, rfl, h.2.symm⟩
    | false =>
      have hsame := (qotSleeperStartExpires_frame k t.sleeperActive (tpFromNsec x) r).2.2.2 hstart
      simp only [hstart, Bool.false_eq_true, if_false, Prod.mk.injEq, hsame] at h
      exact Or.inl ⟨h.1.symm, h.2.symm, Or.inr rfl⟩

theorem qotTimerCreate_frame {addr : Nat} {pid : Int32} {timer : QotTimer} {core : Int64}
    {r : StartReadings} (h : qotTimerCreate k i addr pid timer core r = some k') :
    k'.driver = k.driver ∧ k'.now = r.finish ∧ ∃ tl s, k.timelines[i]? = some tl
      ∧ s.addr ∉ addrs tl.events
      ∧ (k'.timelines = k.timelines
        ∨ k'.timelines
          = k.timelines.set i { tl with events := qotTimelineEventAdd tl.events s }) := by
  obtain ⟨tl, htl, h⟩ := Option.bind_eq_some_iff.mp h
  split at h
  · cases h
  next haddr =>
  obtain ⟨s, hs, rfl⟩ := Option.map_eq_some_iff.mp h
  rw [← (qotInitTimerSleeper_fields hs).1] at haddr
  obtain ⟨hframe, -, hdriver, -⟩ := qotSleeperStartExpires_frame
    (k.setEvents i tl (qotTimelineEventAdd tl.events s)) true (tl.core k.clkglParams s.qotExpires) r
  rw [startSleeper]
  split
  · exact ⟨hdriver, rfl, tl, s, htl, haddr, Or.inr hframe⟩
  · -- adding the node and taking it off again leaves the list of timelines as it was
    refine ⟨hdriver, rfl, tl, s, htl, haddr, Or.inl ?_⟩
    simp only [Kernel.timelines_setEvents, eventErase_eventAdd haddr, hframe, List.set_set]
    exact Kernel.set_self htl

theorem qotSchedulerUpdate_frame {tl : Timeline}
    (h : qotSchedulerUpdate k i tl r alive fuel = some k') :
    k'.driver = k.driver ∧ ∃ d rest,
      wakeLoop (fun e => expiredOnCore tl.type tl.impl k.clkglParams (tpFromNsec r.core) e)
        alive fuel [] tl.events = some (d, rest)
      ∧ k'.timelines = k.timelines.set i { tl with events := d ++ rest } := by
  obtain ⟨⟨d, rest⟩, hloop, hk'⟩ := Option.map_eq_some_iff.mp h
  simp only at hk'
  split at hk'
  · split at hk'
    · subst hk'
      exact ⟨rfl, d, rest, hloop, rfl⟩
    · subst hk'
      exact ⟨rfl, d, rest, hloop, rfl⟩
  · subst hk'
    exact ⟨rfl, d, rest, hloop, rfl⟩

theorem discipline_frame {op : ClockOp} {reading : Int64}
    (h : discipline k i op reading r alive fuel = some k') :
    k'.now = r.finish ∧ ∃ tl, k.timelines[i]? = some tl
      ∧ k'.driver = (applyDiscipline k i tl op reading).driver
      ∧ (k'.timelines = (applyDiscipline k i tl op reading).timelines
        ∨ ∃ tl' d rest, (applyDiscipline k i tl op reading).timelines[i]? = some tl'
          ∧ wakeLoop (fun e => expiredOnCore tl'.type tl'.impl
              (applyDiscipline k i tl op reading).clkglParams (tpFromNsec r.core) e)
            alive fuel [] tl'.events = some (d, rest)
          ∧ k'.timelines = (applyDiscipline k i tl op reading).timelines.set i
            { tl' with events := d ++ rest }) := by
  obtain ⟨tl, htl, h⟩ := Option.bind_eq_some_iff.mp h
  simp only at h
  split at h
  · obtain ⟨tl', htl', h⟩ := Option.bind_eq_some_iff.mp h
    obtain ⟨k₂, hupdate, rfl⟩ := Option.map_eq_some_iff.mp h
    obtain ⟨hdriver, d, rest, hloop, hframe⟩ := qotSchedulerUpdate_frame hupdate
    exact ⟨rfl, tl, htl, hdriver, Or.inr ⟨tl', d, rest, htl', hloop, hframe⟩⟩
  · cases h
    exact ⟨rfl, tl, htl, rfl, Or.inl rfl⟩

/-- The reading after which the update path no longer arms: x86 refuses an expiry its own clock has
reached, am335x is forced, but is asked only for an expiry after the second reading. -/
def UpdateReadings.lastChance (r : UpdateReadings) : Driver → Int64
  | .x86 => r.program
  | .am335x _ => r.second

theorem updateCandidate_cases {n : Int64} (hcb : k.nextInterruptCallback = tpFromNsec n)
    (tl : Timeline) (rest : List TimelineSleeper) :
    (updateCandidate k tl rest = tpFromNsec n
        ∧ ∀ f ∈ rest.head?, k.callbackNs ≤ (tl.coreNs k.clkglParams f.qotExpires).toInt)
      ∨ ∃ f ∈ rest.head?,
        updateCandidate k tl rest = tpFromNsec (tl.coreNs k.clkglParams f.qotExpires)
          ∧ (tl.coreNs k.clkglParams f.qotExpires).toInt < k.callbackNs := by
  cases rest with
  | nil => exact Or.inl ⟨hcb, by simp⟩
  | cons f rest =>
    simp only [updateCandidate, Timeline.core_eq, cmp_callback_iff hcb]
    split
    · next hlt => exact Or.inr ⟨f, rfl, rfl, hlt⟩
    · next hge => exact Or.inl ⟨hcb, by simpa using hge⟩

/-- The update path arms the interrupt for the first node ahead, if that comes before it; else it
only wakes, since the node does not come first or its chance is over. -/
theorem qotSchedulerUpdate_cases {tl : Timeline} {n : Int64}
    (hcb : k.nextInterruptCallback = tpFromNsec n) (hsecond : 1000000000 ≤ r.second.toInt)
    (hprogram : r.second.toInt ≤ r.program.toInt)
    (h : qotSchedulerUpdate k i tl r alive fuel = some k') :
    ∃ d rest, wakeLoop (fun e => expiredOnCore tl.type tl.impl k.clkglParams (tpFromNsec r.core) e)
        alive fuel [] tl.events = some (d, rest)
      ∧ ((k' = k.setEvents i tl (d ++ rest)
          ∧ ∀ f ∈ rest.head?, (tl.coreNs k.clkglParams f.qotExpires).toInt < k.callbackNs →
            (tl.coreNs k.clkglParams f.qotExpires).toInt ≤ (r.lastChance k.driver).toInt)
        ∨ ∃ f ∈ rest.head?, ∃ a,
          k' = { k.setEvents i tl (d ++ rest) with
              armed := some a
              nextInterruptCallback := tpFromNsec (tl.coreNs k.clkglParams f.qotExpires) }
            ∧ (tl.coreNs k.clkglParams f.qotExpires).toInt < k.callbackNs
            ∧ (a ≤ (tl.coreNs k.clkglParams f.qotExpires).toInt + k.driver.lateness
              ∨ (a ≤ r.program.toInt + k.driver.minDelta + k.driver.lateness
                ∧ (tl.coreNs k.clkglParams f.qotExpires).toInt
                  ≤ r.program.toInt + k.driver.minDelta))) := by
  obtain ⟨⟨d, rest⟩, hloop, hk'⟩ := Option.map_eq_some_iff.mp h
  refine ⟨d, rest, hloop, ?_⟩
  simp only at hk'
  rcases updateCandidate_cases hcb tl rest with ⟨hcand, hlate⟩ | ⟨f, hf, hcand, hearly⟩
  · -- the interrupt comes first already
    left
    refine ⟨?_, fun f hf hlt => absurd hlt (not_lt.mpr (hlate f hf))⟩
    obtain ⟨y, hclamp, hnonneg, hy⟩ := clampSec_tpFromNsec n
    rw [hcand, hclamp] at hk'
    have hcond : ¬ (timepointCmp (tpFromNsec r.second) (tpFromNsec y) > 0
        ∧ timepointCmp (tpFromNsec y) k.nextInterruptCallback > 0) := by
      rw [cmp_callback_iff hcb, callbackNs_eq hcb, timepointCmp_tpFromNsec]
      rintro ⟨h1, h2⟩
      rcases hy with rfl | hy <;> omega
    rw [if_neg hcond] at hk'
    exact hk'.symm
  · set x := tl.coreNs k.clkglParams f.qotExpires with hx
    have hhead : ∀ g ∈ rest.head?, g = f := fun g hg => Option.mem_unique hg hf
    obtain ⟨y, hclamp, hnonneg, hy⟩ := clampSec_tpFromNsec x
    rw [hcand, hclamp] at hk'
    simp only [timepointCmp_tpFromNsec, cmp_callback_iff hcb] at hk'
    by_cases hsooner : r.second.toInt < y.toInt ∧ y.toInt < k.callbackNs
    · -- the clamp would have put it before the second reading
      obtain rfl : y = x := by
        rcases hy with hy | hy
        · exact hy
        · omega
      rw [if_pos hsooner] at hk'
      rcases programSchedInterrupt_forced (d := k.driver) (k := x)
        (show 0 ≤ r.program.toInt by omega)
        (by omega) with ⟨hx86, hle, hnone⟩ | ⟨a, ha, hbound⟩
      · -- even by force x86 refuses what its own clock has reached
        left
        rw [hnone] at hk'
        refine ⟨hk'.symm, fun g hg _ => ?_⟩
        rw [hhead g hg, ← hx, hx86]
        exact hle
      · right
        rw [ha] at hk'
        exact ⟨f, hf, a, hk'.symm, hearly, hbound⟩
    · -- it is not programmed: it comes before the interrupt, so its time was up at
      -- the second reading
      left
      rw [if_neg hsooner] at hk'
      refine ⟨hk'.symm, fun g hg _ => ?_⟩
      rw [hhead g hg, ← hx]
      have hpast : x.toInt ≤ r.second.toInt := by
        rcases hy with rfl | hy <;> omega
      unfold UpdateReadings.lastChance
      split <;> omega

/-! ## Changing a mapping -/

section Apply

variable (k : Kernel) (i : Nat) (tl : Timeline) (op : ClockOp) (reading : Int64)

theorem applyDiscipline_fields :
    (applyDiscipline k i tl op reading).driver = k.driver
      ∧ (applyDiscipline k i tl op reading).armed = k.armed
      ∧ (applyDiscipline k i tl op reading).now = k.now
      ∧ (applyDiscipline k i tl op reading).nextInterruptCallback = k.nextInterruptCallback := by
  unfold applyDiscipline
  cases tl.type <;> exact ⟨rfl, rfl, rfl, rfl⟩

theorem callbackNs_applyDiscipline :
    (applyDiscipline k i tl op reading).callbackNs = k.callbackNs := by
  rw [Kernel.callbackNs, (applyDiscipline_fields k i tl op reading).2.2.2, Kernel.callbackNs]

/-- Discipline changes mappings, not trees. -/
theorem mem_applyDiscipline (htl : k.timelines[i]? = some tl) (tl' : Timeline)
    (h : tl' ∈ (applyDiscipline k i tl op reading).timelines) :
    ∃ tl₀ ∈ k.timelines, tl'.events = tl₀.events := by
  unfold applyDiscipline at h
  cases htype : tl.type with
  | qotTimelineGlobal =>
    rw [htype] at h
    exact ⟨tl', h, rfl⟩
  | qotTimelineLocal =>
    rw [htype] at h
    rcases List.mem_or_eq_of_mem_set h with hmem | rfl
    · exact ⟨tl', hmem, rfl⟩
    · exact ⟨tl, List.mem_of_getElem? htl, rfl⟩

end Apply

/-! ## Readings in order -/

/-- The readings of a path, and the core time before it, never go back. -/
abbrev Forward (now : Int64) (readings : List Int64) : Prop :=
  List.IsChain (fun a b => a.toInt ≤ b.toInt) (now :: readings)

theorem forward_of_cons {c : Int64} {readings : List Int64} (h : Forward now (c :: readings)) :
    Forward now readings := by
  cases readings with
  | nil => exact List.isChain_singleton now
  | cons c' readings =>
    simp only [Forward, List.isChain_cons_cons] at h ⊢
    exact ⟨h.1.trans h.2.1, h.2.2⟩

def StartReadings.inOrder (r : StartReadings) : List Int64 := [r.timeNow, r.program, r.finish]

theorem forward_start {r : StartReadings} (h : Forward now r.inOrder) :
    now.toInt ≤ r.timeNow.toInt ∧ r.timeNow.toInt ≤ r.program.toInt
      ∧ r.program.toInt ≤ r.finish.toInt ∧ now.toInt ≤ r.finish.toInt := by
  simp only [Forward, StartReadings.inOrder, List.isChain_cons_cons, List.isChain_singleton,
    and_true] at h
  omega

def InterruptReadings.inOrder (r : InterruptReadings) : List Int64 :=
  [r.first.core, r.first.program, r.second.core, r.second.program, r.third.core, r.third.program,
    r.forced, r.finish]

/-- The core times the rounds wake by. -/
def InterruptReadings.cores (r : InterruptReadings) : List Int64 :=
  [r.first.core, r.second.core, r.third.core]

theorem forward_interrupt {r : InterruptReadings} (h : Forward now r.inOrder) :
    now.toInt ≤ r.forced.toInt ∧ r.forced.toInt ≤ r.finish.toInt
      ∧ ∀ a ∈ [r.first, r.second, r.third],
        a.core ∈ r.cores ∧ a.core.toInt ≤ r.finish.toInt ∧ now.toInt ≤ a.program.toInt := by
  simp only [Forward, InterruptReadings.inOrder, List.isChain_cons_cons, List.isChain_singleton,
    and_true] at h
  refine ⟨by omega, by omega, ?_⟩
  simp only [InterruptReadings.cores, List.mem_cons, List.not_mem_nil, or_false]
  rintro a (rfl | rfl | rfl)
  · exact ⟨by simp, by omega, by omega⟩
  · exact ⟨by simp, by omega, by omega⟩
  · exact ⟨by simp, by omega, by omega⟩

def UpdateReadings.inOrder (r : UpdateReadings) : List Int64 :=
  [r.core, r.second, r.program, r.finish]

theorem forward_update (h : Forward now r.inOrder) :
    now.toInt ≤ r.core.toInt ∧ r.core.toInt ≤ r.second.toInt ∧ r.second.toInt ≤ r.program.toInt
      ∧ r.program.toInt ≤ r.finish.toInt := by
  simpa only [Forward, UpdateReadings.inOrder, List.isChain_cons_cons, List.isChain_singleton,
    and_true] using h

/-- A scheduler with these timelines that has armed nothing yet, one second after the start of the
core clock. -/
def idleKernel (driver : Driver) (timelines : List Timeline) : Kernel where
  driver := driver
  timelines := timelines
  clkglParams := initTranslation
  nextInterruptCallback := maxTimepoint
  armed := none
  now := 1000000000

/-- With one local timeline that reads core time. -/
def steadyKernel (events : List TimelineSleeper) : Kernel :=
  idleKernel .x86 [⟨.qotTimelineLocal, initTranslation, events⟩]

end Qot
