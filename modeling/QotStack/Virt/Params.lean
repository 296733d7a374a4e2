import QotStack.Clock.Syscall
import QotStack.Sync.Uncertainty

/-!
# QotStack — the clock parameters a guest sees

For every timeline of its guests the host daemon runs a thread that copies the clock parameters to
memory shared with them (`write_timeline_params`). It copies them once, and again whenever a poll of
the device reports data. The device reports data when `sync_update_flag` is up, and takes the flag
down as it does (`qot_timeline_chdev_poll`).

The flag is put up by the three operations that steer a local timeline, and by nothing else: not by
`TIMELINE_SET_SYNC_UNCERTAINTY`, and by no operation on a global timeline. `Noticed` is the
condition that such a call changes nothing, or comes when the thread is going to copy anyway;
`guest_parameters_iff` says that with it, and only with it, a poll that reports no data means that
the copy is current.

An operation is one step, under the lock of the timeline. A poll takes no lock and is two: it tests
the flag, and takes it down; others may come between.
-/

namespace Qot

/-- Where the thread is: before its first copy, in the loop, in a poll that has seen the flag, or
after one that has reported data. -/
inductive WriterPc where
  | start
  | polling
  | flagSeen
  | readable
  deriving DecidableEq, Repr

/-- A timeline's device, the shared parameters of the global ones, and the thread with its copy. -/
structure ParamChannel where
  clock : TimelineClock
  clkglParams : TlTranslation
  syncUpdateFlag : Bool
  thread : WriterPc
  shmem : TlTranslation
  deriving DecidableEq, Repr

/-- The parameters the timeline is read through. -/
def ParamChannel.current (s : ParamChannel) : TlTranslation :=
  mappingInForce s.clock.type s.clock.timelineImpl s.clkglParams

inductive ParamOp where
  /-- a call that steers the clock, with what the base clocks read -/
  | steer (core : Option Int64) (realtime : Int64) (call : ClockCall)
  /-- `TIMELINE_SET_SYNC_UNCERTAINTY`, with what `copy_from_user` delivers -/
  | setSyncUncertainty (bounds : Option QotBounds)
  | pollTest
  | pollClear
  | getParameters
  deriving DecidableEq, Repr

/-- Whether a call ends with `sync_update_flag = 1`: in `qot_timeline_clock_adjfreq`,
`qot_timeline_clock_adjtime` and `qot_timeline_chdev_settime`, once the core time has been read. -/
def raisesFlag (type : QotTimelineType) (core : Option Int64) (call : ClockCall) : Bool :=
  match type with
  | .qotTimelineLocal => core.isSome && call.op.isSome
  | .qotTimelineGlobal => false

/-- `none` where the thread does not make the call. -/
def paramStep (s : ParamChannel) : ParamOp → Option ParamChannel
  | .steer core realtime call =>
    let r := timelineCall s.clock s.clkglParams ⟨0, core, realtime, call⟩
    some { s with
      clock := r.2.1
      clkglParams := r.2.2
      syncUpdateFlag := s.syncUpdateFlag || raisesFlag s.clock.type core call }
  | .setSyncUncertainty none => some s
  | .setSyncUncertainty (some bounds) =>
    let r := timelineSetSyncUncertainty s.clock.type s.clock.timelineImpl s.clkglParams bounds
    some { s with clock := { s.clock with timelineImpl := r.1 }, clkglParams := r.2 }
  | .pollTest =>
    match s.thread with
    | .polling => some (if s.syncUpdateFlag then { s with thread := .flagSeen } else s)
    | _ => none
  | .pollClear =>
    match s.thread with
    | .flagSeen => some { s with syncUpdateFlag := false, thread := .readable }
    | _ => none
  | .getParameters =>
    match s.thread with
    | .start | .readable => some { s with shmem := s.current, thread := .polling }
    | _ => none

/-- A poll here reports no data only if the copy is current. -/
abbrev PollTruthful (s : ParamChannel) : Prop :=
  s.thread = .polling → s.syncUpdateFlag = false → s.shmem = s.current

/-! ## Calls that change nothing -/

/-- The operation leaves the parameters as they are. -/
def ClockOp.KeepsMapping (type : QotTimelineType) (m : TlTranslation) (ns : Int64) : ClockOp → Prop
  | .adjfreq ppb => m.last = ns ∧ m.mult = ppb.toInt64
  | .adjtime delta => delta = 0
  | .settime tp => m.last = ns ∧ m.nsec =
    match type with
    | .qotTimelineLocal => timespecToNs tp
    | .qotTimelineGlobal => tpToNsec (timepointFromTimespec tp)
  | .gettime => True

/-- The bounds are the ones stored. -/
def QotBounds.Stored (bounds : QotBounds) (m : TlTranslation) : Prop :=
  m.uMult = bounds.uDrift.toInt32.toInt64 ∧ m.lMult = bounds.lDrift.toInt32.toInt64
    ∧ m.uNsec = bounds.uNsec ∧ m.lNsec = bounds.lNsec

theorem clockApply_eq_iff (type : QotTimelineType) (m : TlTranslation) (ns : Int64) (op : ClockOp) :
    clockApply type m ns op = m ↔ op.KeepsMapping type m ns := by
  obtain ⟨last, mult, nsec, uNsec, lNsec, uMult, lMult⟩ := m
  cases op with
  | adjfreq ppb =>
    rw [clockApply_adjfreq]
    simp only [adjfreq, ClockOp.KeepsMapping, TlTranslation.mk.injEq, and_true]
    constructor
    · rintro ⟨rfl, rfl, -⟩
      exact ⟨rfl, rfl⟩
    · rintro ⟨rfl, rfl⟩
      refine ⟨rfl, rfl, ?_⟩
      simp
  | adjtime delta =>
    rw [clockApply_adjtime]
    simp only [adjtime, ClockOp.KeepsMapping, TlTranslation.mk.injEq, and_true, true_and]
    exact Int64.add_eq_left
  | settime tp =>
    cases type <;>
      simp only [clockApply, qotTimelineChdevSettime, qotClockGlSettime, settime,
        ClockOp.KeepsMapping, TlTranslation.mk.injEq, and_true, true_and, eq_comm]
  | gettime => simp [clockApply, ClockOp.KeepsMapping]

theorem setUncertainty_eq_iff (m : TlTranslation) (bounds : QotBounds) :
    setUncertainty m bounds = m ↔ bounds.Stored m := by
  obtain ⟨last, mult, nsec, uNsec, lNsec, uMult, lMult⟩ := m
  simp only [setUncertainty, QotBounds.Stored, TlTranslation.mk.injEq, true_and]
  constructor
  · rintro ⟨rfl, rfl, rfl, rfl⟩
    exact ⟨rfl, rfl, rfl, rfl⟩
  · rintro ⟨rfl, rfl, rfl, rfl⟩
    exact ⟨rfl, rfl, rfl, rfl⟩

/-! ## The condition -/

/-- The thread is in the loop and the flag is down: a change now has to put it up. -/
def ParamChannel.Quiet (s : ParamChannel) : Prop :=
  s.thread = .polling ∧ s.syncUpdateFlag = false

/-- The condition on a step: what does not put the flag up changes nothing while the thread relies
on it. -/
def Noticed (s : ParamChannel) : ParamOp → Prop
  | .steer _ realtime call => s.clock.type = .qotTimelineGlobal → s.Quiet →
      ∀ op, call.op = some op → op.KeepsMapping .qotTimelineGlobal s.clkglParams realtime
  | .setSyncUncertainty (some bounds) => s.Quiet → bounds.Stored s.current
  | _ => True

variable {s s' : ParamChannel}

theorem current_steer {core : Option Int64} {realtime : Int64} {call : ClockCall}
    (h : paramStep s (.steer core realtime call) = some s') :
    s'.current = applyCall s.clock.type s.current
        (match s.clock.type with
          | .qotTimelineLocal => core
          | .qotTimelineGlobal => some realtime) call
      ∧ s'.thread = s.thread ∧ s'.shmem = s.shmem
      ∧ s'.syncUpdateFlag = (s.syncUpdateFlag || raisesFlag s.clock.type core call) := by
  obtain ⟨⟨type, timelineImpl, dialed⟩, clkglParams, flag, thread, shmem⟩ := s
  simp only [paramStep] at h
  cases h
  obtain ⟨himpl, hparams⟩ := timelineCall_spec ⟨type, timelineImpl, dialed⟩ clkglParams
    ⟨0, core, realtime, call⟩
  have htype := timelineCall_type ⟨type, timelineImpl, dialed⟩ clkglParams
    ⟨0, core, realtime, call⟩
  refine ⟨?_, rfl, rfl, rfl⟩
  simp only [ParamChannel.current, htype]
  cases type with
  | qotTimelineLocal => exact himpl
  | qotTimelineGlobal => exact hparams

theorem current_setSyncUncertainty {bounds : QotBounds}
    (h : paramStep s (.setSyncUncertainty (some bounds)) = some s') :
    s'.current = setUncertainty s.current bounds ∧ s'.thread = s.thread ∧ s'.shmem = s.shmem
      ∧ s'.syncUpdateFlag = s.syncUpdateFlag := by
  obtain ⟨⟨type, timelineImpl, dialed⟩, clkglParams, flag, thread, shmem⟩ := s
  simp only [paramStep] at h
  cases h
  refine ⟨?_, rfl, rfl, rfl⟩
  cases type <;> rfl

/-- A call that does not put the flag up changes a local timeline's parameters in no way. -/
theorem applyCall_of_not_raisesFlag {core : Option Int64} {call : ClockCall}
    (h : raisesFlag .qotTimelineLocal core call = false) (m : TlTranslation) :
    applyCall .qotTimelineLocal m core call = m := by
  unfold applyCall
  cases core with
  | none => rfl
  | some ns =>
    cases hop : call.op with
    | none => rfl
    | some op => simp [raisesFlag, hop] at h

/-- A call on a global timeline changes nothing exactly if its operation does not. -/
theorem applyCall_global_eq_iff (m : TlTranslation) (realtime : Int64) (call : ClockCall) :
    applyCall .qotTimelineGlobal m (some realtime) call = m
      ↔ ∀ op, call.op = some op → op.KeepsMapping .qotTimelineGlobal m realtime := by
  unfold applyCall
  cases hop : call.op with
  | none => simp
  | some op => simp [clockApply_eq_iff]

/-! ## Runs -/

/-- A step that leaves the flag, the thread and the copy alone must leave the parameters alone while
the thread relies on the flag. -/
theorem pollTruthful_iff_of_silent (h : PollTruthful s) (hthread : s'.thread = s.thread)
    (hshmem : s'.shmem = s.shmem) (hflag : s'.syncUpdateFlag = s.syncUpdateFlag) :
    PollTruthful s' ↔ (s.Quiet → s'.current = s.current) := by
  unfold PollTruthful
  rw [hthread, hshmem, hflag]
  constructor
  · rintro hafter ⟨hpolling, hdown⟩
    rw [← hafter hpolling hdown, h hpolling hdown]
  · intro hsame hpolling hdown
    rw [hsame ⟨hpolling, hdown⟩, h hpolling hdown]

/-- **One step.** From a state with a truthful poll it leads to one exactly under the condition. -/
theorem pollTruthful_step_iff {op : ParamOp} (h : PollTruthful s)
    (hstep : paramStep s op = some s') : PollTruthful s' ↔ Noticed s op := by
  cases op with
  | steer core realtime call =>
    obtain ⟨hcurrent, hthread, hshmem, hflag⟩ := current_steer hstep
    cases htype : s.clock.type with
    | qotTimelineLocal =>
      refine iff_of_true (fun hpolling hdown => ?_) (by simp [Noticed, htype])
      simp only [htype, hthread] at hcurrent hflag hpolling
      rw [hflag, Bool.or_eq_false_iff] at hdown
      rw [hshmem, hcurrent, applyCall_of_not_raisesFlag hdown.2, h hpolling hdown.1]
    | qotTimelineGlobal =>
      have hglobal : s.current = s.clkglParams := by
        simp [ParamChannel.current, mappingInForce, htype]
      simp only [htype, raisesFlag, Bool.or_false] at hcurrent hflag
      rw [pollTruthful_iff_of_silent h hthread hshmem hflag, hcurrent]
      simp only [Noticed, htype, forall_const, ← hglobal, ← applyCall_global_eq_iff]
  | setSyncUncertainty bounds =>
    cases bounds with
    | none =>
      cases hstep
      exact iff_of_true h trivial
    | some bounds =>
      obtain ⟨hcurrent, hthread, hshmem, hflag⟩ := current_setSyncUncertainty hstep
      rw [pollTruthful_iff_of_silent h hthread hshmem hflag, hcurrent]
      simp only [Noticed, ← setUncertainty_eq_iff]
  | pollTest =>
    simp only [paramStep] at hstep
    split at hstep <;> cases hstep
    split
    · exact iff_of_true (fun hpolling => by cases hpolling) trivial
    · exact iff_of_true h trivial
  | pollClear =>
    simp only [paramStep] at hstep
    split at hstep <;> cases hstep
    -- what came between test and clear will be copied
    exact iff_of_true (fun hpolling => by cases hpolling) trivial
  | getParameters =>
    simp only [paramStep] at hstep
    split at hstep <;> cases hstep <;> exact iff_of_true (fun _ _ => rfl) trivial

/-- A device and the thread that has just opened it. -/
def ParamChannel.opened (clock : TimelineClock) (clkglParams : TlTranslation)
    (syncUpdateFlag : Bool) (shmem : TlTranslation) : ParamChannel :=
  ⟨clock, clkglParams, syncUpdateFlag, .start, shmem⟩

/-- A step that nobody makes has nothing to be noticed. -/
theorem noticed_of_none {op : ParamOp} (h : paramStep s op = none) : Noticed s op := by
  cases op with
  | steer core realtime call => cases h
  | setSyncUncertainty bounds => cases bounds <;> cases h
  | pollTest => trivial
  | pollClear => trivial
  | getParameters => trivial

/-- **A poll that reports no data means a current copy, exactly in the runs that meet the
condition.** -/
theorem guest_parameters_iff (clock : TimelineClock) (clkglParams shmem : TlTranslation)
    (syncUpdateFlag : Bool) (ops : List ParamOp) :
    Runs.AllStates paramStep PollTruthful (.opened clock clkglParams syncUpdateFlag shmem) ops
      ↔ Runs.AllSteps paramStep Noticed (.opened clock clkglParams syncUpdateFlag shmem) ops := by
  refine Runs.allStates_iff_allSteps (fun _ h => h) ?_ ?_ (fun hpolling => by cases hpolling)
  · intro s op s' h hnoticed hstep
    exact (pollTruthful_step_iff h hstep).mpr hnoticed
  · intro s op h hafter
    cases hstep : paramStep s op with
    | none => exact noticed_of_none hstep
    | some s' => exact (pollTruthful_step_iff h hstep).mp (hafter s' hstep)

/-- After the first copy, an uncertainty update of a local timeline and a correction of a global one
are both missed. -/
theorem guest_parameters_stale :
    ¬ Runs.AllStates paramStep PollTruthful
        (.opened ⟨.qotTimelineLocal, initTranslation, 0⟩ initTranslation false initTranslation)
        [.getParameters, .setSyncUncertainty (some ⟨10, -10, 100, -100⟩), .pollTest]
      ∧ ¬ Runs.AllStates paramStep PollTruthful
        (.opened ⟨.qotTimelineGlobal, initTranslation, 0⟩ initTranslation false initTranslation)
        [.getParameters, .steer none 1000 (.adjtime ⟨adjSetoffset, 0, 2, 500⟩), .pollTest] := by
  constructor <;> decide

/-- The same correction of a local timeline is seen. -/
example : Runs.AllStates paramStep PollTruthful
    (.opened ⟨.qotTimelineLocal, initTranslation, 0⟩ initTranslation false initTranslation)
    [.getParameters, .steer (some 1000) 0 (.adjtime ⟨adjSetoffset, 0, 2, 500⟩), .pollTest,
      .pollClear, .getParameters, .pollTest] := by decide

end Qot
