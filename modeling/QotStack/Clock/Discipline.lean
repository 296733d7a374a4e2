import QotStack.Lib.Runs
import QotStack.Clock.Mapping

/-!
# QotStack — clock discipline

A timeline clock is steered by three operations: `adjfreq` re-bases the mapping at the current
core time and changes the rate, `adjtime` shifts the offset, `settime` re-bases on a given value.
Local timelines apply them to their own mapping (`qot_timeline_chdev.c`), global ones to the
shared `clkgl_params` (`qot_clock_gl.c`).

`clockStep` runs one operation, or one reading, at a core time. Over whole runs:

* `clockEffect_of_fits` — what each operation does to the reading;
* `disciplineInv_step` — with a positive rate and forward corrections no reading is ever above the
  present one;
* `clock_discipline` — both, along every run at non-decreasing core times without overflow.
-/

namespace Qot

open MachineInt

structure Timespec where
  tvSec : Int64
  tvNsec : Int64
  deriving DecidableEq, Repr

def timespecToNs (ts : Timespec) : Int64 := ts.tvSec * 1000000000 + ts.tvNsec

def timepointFromTimespec (ts : Timespec) : Timepoint :=
  ⟨ts.tvSec, ts.tvNsec.toUInt64 * nSecPerSec⟩

/-- Going through a `timepoint_t` makes no difference as long as the nanoseconds, read as unsigned,
can be scaled in 64 bits. -/
theorem tpToNsec_timepointFromTimespec {ts : Timespec}
    (h : 0 ≤ ts.tvNsec.toInt ∧ ts.tvNsec.toInt < 18446744073) :
    tpToNsec (timepointFromTimespec ts) = timespecToNs ts := by
  apply Int64.toInt_inj.mp
  have hn : nSecPerSec.toNat = 1000000000 := rfl
  have hnsec := toNat_toUInt64 ts.tvNsec
  -- the product with `nSEC_PER_SEC` still fits in 64 bits
  have hasec : ts.tvNsec.toUInt64.toNat * 1000000000 % 2 ^ 64
      = ts.tvNsec.toUInt64.toNat * 1000000000 := Nat.mod_eq_of_lt (by omega)
  rw [toInt_tpToNsec]
  unfold timespecToNs timepointFromTimespec
  simp only
  rw [toInt_add_eq, toInt_mul_eq, toInt_billion, UInt64.toNat_mul, hn, hasec]
  unfold wrap64
  omega

/-! ## The operations -/

/-- Re-base the mapping at core time `ns` and change the rate. -/
def adjfreq (m : TlTranslation) (ns : Int64) (ppb : Int32) : TlTranslation :=
  { m with
    nsec := m.nsec + ((ns - m.last) + m.mult * (ns - m.last) / 1000000000)
    last := ns
    mult := ppb.toInt64 }

/-- Shift the timeline. The core time is read and not used. -/
def adjtime (m : TlTranslation) (_ns delta : Int64) : TlTranslation :=
  { m with nsec := m.nsec + delta }

/-- Re-base the mapping at core time `ns` on a given value; the rate stays. -/
def settime (m : TlTranslation) (ns value : Int64) : TlTranslation :=
  { m with last := ns, nsec := value }

def qotTimelineClockAdjfreq (timelineImpl : TlTranslation) (ns : Int64) (ppb : Int32) :
    TlTranslation :=
  adjfreq timelineImpl ns ppb

def qotTimelineClockAdjtime (timelineImpl : TlTranslation) (ns delta : Int64) : TlTranslation :=
  adjtime timelineImpl ns delta

def qotTimelineChdevSettime (timelineImpl : TlTranslation) (ns : Int64) (tp : Timespec) :
    TlTranslation :=
  settime timelineImpl ns (timespecToNs tp)

def qotTimelineChdevGettime (timelineImpl : TlTranslation) (ns : Int64) : Int64 :=
  timelineImpl.nsec + (ns - timelineImpl.last)
    + timelineImpl.mult * (ns - timelineImpl.last) / 1000000000

def qotClockGlAdjfreq (clkglParams : TlTranslation) (ns : Int64) (ppb : Int32) : TlTranslation :=
  adjfreq clkglParams ns ppb

def qotClockGlAdjtime (clkglParams : TlTranslation) (ns delta : Int64) : TlTranslation :=
  adjtime clkglParams ns delta

def qotClockGlSettime (clkglParams : TlTranslation) (ns : Int64) (tp : Timepoint) :
    TlTranslation :=
  settime clkglParams ns (tpToNsec tp)

/-- The estimate of `qot_clock_gl_get_time`. -/
def qotClockGlNow (clkglParams : TlTranslation) (ns : Int64) : Int64 :=
  clkglParams.nsec + (ns - clkglParams.last)
    + clkglParams.mult * (ns - clkglParams.last) / 1000000000

/-! ## Running a clock -/

inductive ClockOp where
  | adjfreq (ppb : Int32)
  | adjtime (delta : Int64)
  | settime (tp : Timespec)
  | gettime
  deriving DecidableEq, Repr

structure ClockEvent where
  core : Int64
  op : ClockOp
  deriving DecidableEq, Repr

/-- The clock, the core time of the last operation, and the readings taken so far, newest first. -/
structure ClockState where
  core : Int64
  clock : TlTranslation
  readings : List Int64
  deriving DecidableEq, Repr

/-- The mapping after an operation. A global timeline's `settime` passes through a `timepoint_t`
(`qot_timeline_gl_chdev_settime`). -/
def clockApply (type : QotTimelineType) (m : TlTranslation) (ns : Int64) :
    ClockOp → TlTranslation
  | .adjfreq ppb =>
    match type with
    | .qotTimelineLocal => qotTimelineClockAdjfreq m ns ppb
    | .qotTimelineGlobal => qotClockGlAdjfreq m ns ppb
  | .adjtime delta =>
    match type with
    | .qotTimelineLocal => qotTimelineClockAdjtime m ns delta
    | .qotTimelineGlobal => qotClockGlAdjtime m ns delta
  | .settime tp =>
    match type with
    | .qotTimelineLocal => qotTimelineChdevSettime m ns tp
    | .qotTimelineGlobal => qotClockGlSettime m ns (timepointFromTimespec tp)
  | .gettime => m

def clockRead (type : QotTimelineType) (m : TlTranslation) (ns : Int64) : Int64 :=
  match type with
  | .qotTimelineLocal => qotTimelineChdevGettime m ns
  | .qotTimelineGlobal => qotClockGlNow m ns

def clockStep (type : QotTimelineType) (s : ClockState) (ev : ClockEvent) : Option ClockState :=
  some
    { core := ev.core
      clock := clockApply type s.clock ev.core ev.op
      readings :=
        if ev.op = .gettime then clockRead type s.clock ev.core :: s.readings else s.readings }

/-- The value of a `timespec`, in nanoseconds. -/
def setValue (tp : Timespec) : Int := tp.tvSec.toInt * 1000000000 + tp.tvNsec.toInt

/-- What the global clock asks of a `timespec`: nanoseconds that are less than a second. -/
abbrev SettableOn (type : QotTimelineType) (tp : Timespec) : Prop :=
  type = .qotTimelineGlobal → 0 ≤ tp.tvNsec.toInt ∧ tp.tvNsec.toInt < 1000000000

/-- No product and no sum of the operation overflows. -/
def EventFits (type : QotTimelineType) (m : TlTranslation) (ev : ClockEvent) : Prop :=
  match ev.op with
  | .adjfreq _ => Loc2remFits m ev.core.toInt
  | .adjtime delta => Fits64 (m.nsec.toInt + delta.toInt)
  | .settime tp => Fits64 (setValue tp) ∧ SettableOn type tp
  | .gettime => Loc2remFits m ev.core.toInt

/-- Operations that can only move the clock forward. -/
def ClockOp.Forward : ClockOp → Prop
  | .adjfreq ppb => -1000000000 < ppb.toInt
  | .adjtime delta => 0 ≤ delta.toInt
  | .settime _ => False
  | .gettime => True

instance (op : ClockOp) : Decidable op.Forward := by
  cases op <;> unfold ClockOp.Forward <;> infer_instance

/-! ## What one operation does -/

theorem clockRead_eq (type : QotTimelineType) (m : TlTranslation) (ns : Int64) :
    clockRead type m ns = loc2rem m false ns := by
  cases type <;> rfl

theorem loc2rem_last (m : TlTranslation) : loc2rem m false m.last = m.nsec := by
  unfold loc2rem
  simp

theorem clockApply_adjfreq (type : QotTimelineType) (m : TlTranslation) (ns : Int64) (ppb : Int32) :
    clockApply type m ns (.adjfreq ppb) = adjfreq m ns ppb := by
  cases type <;> rfl

theorem clockApply_adjtime (type : QotTimelineType) (m : TlTranslation) (ns delta : Int64) :
    clockApply type m ns (.adjtime delta) = adjtime m ns delta := by
  cases type <;> rfl

/-- The re-based offset of `adjfreq` is the reading it replaces. -/
theorem adjfreq_nsec (m : TlTranslation) (ns : Int64) (ppb : Int32) :
    (adjfreq m ns ppb).nsec = loc2rem m false ns := by
  unfold adjfreq loc2rem
  simp [Int64.add_assoc]

variable {type : QotTimelineType}

/-- Both ways of setting a clock store the conversion of the `timespec`. -/
theorem clockApply_settime_nsec {tp : Timespec} (h : SettableOn type tp) (m : TlTranslation)
    (ns : Int64) : (clockApply type m ns (.settime tp)).nsec = timespecToNs tp := by
  cases type with
  | qotTimelineLocal => rfl
  | qotTimelineGlobal =>
    have hnsec := h rfl
    exact tpToNsec_timepointFromTimespec ⟨hnsec.1, by omega⟩

theorem toInt_timespecToNs {tp : Timespec} (h : Fits64 (setValue tp)) :
    (timespecToNs tp).toInt = setValue tp := by
  unfold timespecToNs setValue at *
  rw [toInt_add_eq, toInt_mul_eq, toInt_billion]
  unfold wrap64
  omega

theorem reading_adjtime {m : TlTranslation} {delta : Int64}
    (h : Fits64 (m.nsec.toInt + delta.toInt)) (ns : Int64) (c : Int) :
    (adjtime m ns delta).reading c = m.reading c + delta.toInt := by
  unfold adjtime TlTranslation.reading
  simp only
  rw [toInt_add_of_fits h]
  omega

/-- What an operation promises about readings: `adjfreq` keeps the one at its own instant,
`adjtime` shifts every later one by its delta, `settime` makes the one at its instant the value it
was given. -/
def ClockEffect (type : QotTimelineType) (s : ClockState) (ev : ClockEvent) : Prop :=
  let m' := clockApply type s.clock ev.core ev.op
  match ev.op with
  | .adjfreq _ => clockRead type m' ev.core = clockRead type s.clock ev.core
  | .adjtime delta => ∀ c : Int64, ev.core.toInt ≤ c.toInt → Loc2remFits s.clock c.toInt →
      Loc2remFits m' c.toInt →
      (clockRead type m' c).toInt = (clockRead type s.clock c).toInt + delta.toInt
  | .settime tp => (clockRead type m' ev.core).toInt = setValue tp
  | .gettime => m' = s.clock

theorem clockEffect_of_fits {s : ClockState} {ev : ClockEvent} (h : EventFits type s.clock ev) :
    ClockEffect type s ev := by
  obtain ⟨core, op⟩ := ev
  cases op with
  | adjfreq ppb =>
    simp only [ClockEffect, clockRead_eq, clockApply_adjfreq]
    rw [← adjfreq_nsec s.clock core ppb]
    exact loc2rem_last (adjfreq s.clock core ppb)
  | adjtime delta =>
    have hfit : Fits64 (s.clock.nsec.toInt + delta.toInt) := h
    simp only [ClockEffect, clockRead_eq, clockApply_adjtime]
    intro c _ hbefore hafter
    rw [toInt_loc2rem hbefore, toInt_loc2rem hafter, reading_adjtime hfit]
  | settime tp =>
    obtain ⟨hset, hsettable⟩ : Fits64 (setValue tp) ∧ SettableOn type tp := h
    have hlast : (clockApply type s.clock core (.settime tp)).last = core := by
      cases type <;> rfl
    have hread := loc2rem_last (clockApply type s.clock core (.settime tp))
    rw [hlast] at hread
    simp only [ClockEffect, clockRead_eq]
    rw [hread, clockApply_settime_nsec hsettable, toInt_timespecToNs hset]
  | gettime => rfl

/-! ## Readings over a run -/

/-- The mapping runs forward from its base, and nothing read so far is above the present. -/
structure DisciplineInv (s : ClockState) : Prop where
  based : s.clock.last.toInt ≤ s.core.toInt
  rate : -1000000000 < s.clock.mult.toInt
  below : ∀ r ∈ s.readings, r.toInt ≤ s.clock.reading s.core.toInt
  ordered : s.readings.Pairwise fun later earlier => earlier.toInt ≤ later.toInt

theorem reading_last (m : TlTranslation) : m.reading m.last.toInt = m.nsec.toInt := by
  unfold TlTranslation.reading
  rw [sub_self, RateMap.forward_zero, add_zero]

theorem reading_adjfreq {m : TlTranslation} {ns : Int64} (h : Loc2remFits m ns.toInt)
    (ppb : Int32) : (adjfreq m ns ppb).reading ns.toInt = m.reading ns.toInt := by
  have hlast := reading_last (adjfreq m ns ppb)
  rw [adjfreq_nsec, toInt_loc2rem h] at hlast
  exact hlast

/-- An event may come at any later core time. -/
abbrev ClockEvent.Follows (ev : ClockEvent) (s : ClockState) : Prop := s.core.toInt ≤ ev.core.toInt

/-- **One step.** Forward operations without overflow keep the invariant. -/
theorem disciplineInv_step {s s' : ClockState} {ev : ClockEvent} (h : DisciplineInv s)
    (hlater : ev.Follows s) (hfits : EventFits type s.clock ev) (hfwd : ev.op.Forward)
    (hs' : clockStep type s ev = some s') : DisciplineInv s' := by
  obtain ⟨core, op⟩ := ev
  have hcore : s.core.toInt ≤ core.toInt := hlater
  have hbased := h.based
  -- advancing core time alone raises the present reading
  have hnow : ∀ r ∈ s.readings, r.toInt ≤ s.clock.reading core.toInt := fun r hr =>
    (h.below r hr).trans (reading_mono h.rate hcore)
  cases hs'
  cases op with
  | adjfreq ppb =>
    have hfit : Loc2remFits s.clock core.toInt := hfits
    have hppb : -1000000000 < ppb.toInt := hfwd
    -- the base moves to the present, where both mappings read the same
    refine ⟨?_, ?_, ?_, h.ordered⟩
    · rw [clockApply_adjfreq]
      exact le_refl _
    · rw [clockApply_adjfreq]
      simpa [adjfreq] using hppb
    · rw [clockApply_adjfreq, reading_adjfreq hfit]
      exact hnow
  | adjtime delta =>
    have hfit : Fits64 (s.clock.nsec.toInt + delta.toInt) := hfits
    have hdelta : 0 ≤ delta.toInt := hfwd
    refine ⟨?_, ?_, ?_, h.ordered⟩
    · rw [clockApply_adjtime]
      exact hbased.trans hcore
    · rw [clockApply_adjtime]
      exact h.rate
    · rw [clockApply_adjtime, reading_adjtime hfit]
      intro r hr
      have hle := hnow r hr
      show r.toInt ≤ s.clock.reading core.toInt + delta.toInt
      omega
  | settime tp => exact absurd hfwd id
  | gettime =>
    have hfit : Loc2remFits s.clock core.toInt := hfits
    have hread : (clockRead type s.clock core).toInt = s.clock.reading core.toInt := by
      rw [clockRead_eq, toInt_loc2rem hfit]
    refine ⟨hbased.trans hcore, h.rate, ?_, ?_⟩
    · simp only [if_true, List.mem_cons]
      rintro r (rfl | hr)
      · exact hread.le
      · exact hnow r hr
    · simp only [if_true, List.pairwise_cons]
      exact ⟨fun r hr => hread ▸ hnow r hr, h.ordered⟩

/-- **Discipline semantics.** Along every run at non-decreasing core times in which no product or
sum overflows and the global clock is set to a normalised `timespec`, on a local timeline or on the
global clock, every operation has its effect on the reading; and when the run only ever steers
forward, the readings it takes never decrease. -/
theorem clock_discipline (type : QotTimelineType) (s : ClockState) (evs : List ClockEvent)
    (hrun : Runs.AllSteps (clockStep type)
      (fun s ev => ev.Follows s ∧ EventFits type s.clock ev) s evs) :
    Runs.AllSteps (clockStep type) (ClockEffect type) s evs
      ∧ (s.clock.last.toInt ≤ s.core.toInt → -1000000000 < s.clock.mult.toInt → s.readings = [] →
        Runs.AllSteps (clockStep type) (fun _ ev => ev.op.Forward) s evs →
        Runs.AllStates (clockStep type)
          (fun s => s.readings.Pairwise fun later earlier => earlier.toInt ≤ later.toInt)
          s evs) := by
  refine ⟨?_, fun hbased hrate hempty hfwd => ?_⟩
  · exact Runs.allSteps_of_inv (J := fun _ => True) (fun s ev _ hg => clockEffect_of_fits hg.2)
      (fun _ _ _ _ _ _ => trivial) trivial hrun
  · have hinv : DisciplineInv s :=
      ⟨hbased, hrate, by rw [hempty]; simp, by rw [hempty]; exact List.Pairwise.nil⟩
    exact Runs.allStates_of_inv (fun s h => h.ordered)
      (fun s ev s' hJ hg hs' => disciplineInv_step hJ hg.1.1 hg.1.2 hg.2 hs') hinv (hrun.and hfwd)

def registeredClock : ClockState := ⟨0, initTranslation, []⟩

def forwardEvents : List ClockEvent :=
  [⟨5, .gettime⟩, ⟨5, .adjfreq 500⟩, ⟨2000000000, .gettime⟩, ⟨2000000000, .adjtime 7⟩,
    ⟨2000000001, .gettime⟩]

/-- The global clock is set, slewed and set again. -/
def settingEvents : List ClockEvent :=
  [⟨5, .settime ⟨90, 250000000⟩⟩, ⟨1000, .adjfreq (-500)⟩, ⟨2000000000, .gettime⟩,
    ⟨3000000000, .settime ⟨100, 999999999⟩⟩, ⟨3000000001, .adjtime (-7)⟩]

theorem clock_discipline_forwardEvents :
    Runs.AllStates (clockStep .qotTimelineLocal)
        (fun s => s.readings.Pairwise fun later earlier => earlier.toInt ≤ later.toInt)
        registeredClock forwardEvents
      ∧ Runs.AllSteps (clockStep .qotTimelineGlobal) (ClockEffect .qotTimelineGlobal)
        registeredClock settingEvents := by
  refine ⟨(clock_discipline .qotTimelineLocal registeredClock forwardEvents ?_).2 (by decide)
    (by decide) rfl ?_, (clock_discipline .qotTimelineGlobal registeredClock settingEvents ?_).1⟩
  · simp only [forwardEvents, Runs.AllSteps, clockStep, Option.some.injEq, forall_eq', EventFits]
    exact ⟨⟨by decide, ⟨by decide, by decide, by decide, by decide⟩⟩,
      ⟨by decide, ⟨by decide, by decide, by decide, by decide⟩⟩,
      ⟨by decide, ⟨by decide, by decide, by decide, by decide⟩⟩,
      ⟨by decide, by decide⟩,
      ⟨by decide, ⟨by decide, by decide, by decide, by decide⟩⟩, trivial⟩
  · simp only [forwardEvents, Runs.AllSteps, clockStep, Option.some.injEq, forall_eq']
    exact ⟨by decide, by decide, by decide, by decide, by decide, trivial⟩
  · simp only [settingEvents, Runs.AllSteps, clockStep, Option.some.injEq, forall_eq', EventFits]
    exact ⟨⟨by decide, by decide, by decide⟩,
      ⟨by decide, ⟨by decide, by decide, by decide, by decide⟩⟩,
      ⟨by decide, ⟨by decide, by decide, by decide, by decide⟩⟩,
      ⟨by decide, by decide, by decide⟩, ⟨by decide, by decide⟩, trivial⟩

/-- Only the products of an operation are known not to overflow. -/
def ProductFits (m : TlTranslation) (ev : ClockEvent) : Prop :=
  Fits64 (m.mult.toInt * (ev.core.toInt - m.last.toInt))

/-- Two shifts whose sum leaves the signed range, with a reading after each. -/
def overflowEvents : List ClockEvent :=
  [⟨0, .adjtime 9223372036854775807⟩, ⟨0, .gettime⟩, ⟨0, .adjtime 1⟩, ⟨0, .gettime⟩]

/-- **Bounding the products is not enough.** The offset itself overflows under two forward
shifts, and the second reading is below the first; and a nanosecond before zero, set on the global
clock, reads as more than eighteen seconds. -/
theorem clock_discipline_needs_sums :
    Runs.AllSteps (clockStep .qotTimelineLocal)
        (fun s ev => ev.Follows s ∧ ProductFits s.clock ev) registeredClock overflowEvents
      ∧ Runs.AllSteps (clockStep .qotTimelineLocal) (fun _ ev => ev.op.Forward) registeredClock
        overflowEvents
      ∧ ¬ Runs.AllStates (clockStep .qotTimelineLocal)
        (fun s => s.readings.Pairwise fun later earlier => earlier.toInt ≤ later.toInt)
        registeredClock overflowEvents
      ∧ Fits64 (setValue ⟨0, -1⟩)
      ∧ clockRead .qotTimelineGlobal
          (clockApply .qotTimelineGlobal initTranslation 5 (.settime ⟨0, -1⟩)) 5 = 18446744072 := by
  refine ⟨?_, ?_, fun h => ?_, by decide, by decide⟩
  · simp only [overflowEvents, Runs.AllSteps, clockStep, Option.some.injEq, forall_eq',
      ProductFits]
    exact ⟨⟨by decide, by decide⟩, ⟨by decide, by decide⟩, ⟨by decide, by decide⟩,
      ⟨by decide, by decide⟩, trivial⟩
  · simp only [overflowEvents, Runs.AllSteps, clockStep, Option.some.injEq, forall_eq']
    exact ⟨by decide, by decide, by decide, by decide, trivial⟩
  · exact absurd (h.exec rfl) (by decide)

end Qot
