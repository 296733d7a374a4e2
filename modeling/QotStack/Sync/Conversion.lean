import QotStack.Sync.Uncertainty

/-!
# QotStack — one mapping, many call sites

A timeline's mapping is consulted in many places: the conversion calls of the timeline device, the
scheduler, the report after a wait, and both ends of a periodic output. Each of them chooses between
the timeline's own parameters and the shared global ones on its own.

* The periodic output never chooses: `QOTUSR_OUTPUT_COMPARE_ENABLE` and `qot_perout_notify` take the
  timeline's own parameters also on a global timeline. `one_mapping_iff` says what it takes for all
  call sites to agree.
* `TIMELINE_CORE_TO_REMOTE` converts with the right parameters and then adds the uncertainty of the
  timeline's own ones, while `TIMELINE_SET_SYNC_UNCERTAINTY` stores it with the global ones.
  `core_to_remote_bounds_iff` compares its interval with that of `TIMELINE_GET_TIME_NOW`.
-/

namespace Qot

open MachineInt

/-! ## The call sites -/

/-- A time point with the two ends of its uncertainty (`stimepoint_t`). -/
structure Stimepoint where
  estimate : Timepoint
  uEstimate : Timepoint
  lEstimate : Timepoint
  deriving DecidableEq, Repr

/-- `TIMELINE_CORE_TO_REMOTE`. -/
def timelineCoreToRemote (type : QotTimelineType) (timelineImpl clkglParams : TlTranslation)
    (stp : Timepoint) : Stimepoint :=
  match type with
  | .qotTimelineLocal =>
    let coretime := tpToNsec stp
    let timelinetime := qotLoc2rem timelineImpl false coretime
    let uTimelinetime := timelinetime
      + timelineImpl.uMult * (coretime - timelineImpl.last) / 1000000000 + timelineImpl.uNsec
    let lTimelinetime := timelinetime
      + timelineImpl.lMult * (coretime - timelineImpl.last) / 1000000000 + timelineImpl.lNsec
    ⟨tpFromNsec timelinetime, tpFromNsec uTimelinetime, tpFromNsec lTimelinetime⟩
  | .qotTimelineGlobal =>
    let coretime := tpToNsec stp
    let timelinetime := qotGlLoc2rem clkglParams false coretime
    -- the uncertainty is still the timeline's own
    let uTimelinetime := timelinetime
      + timelineImpl.uMult * (coretime - timelineImpl.last) / 1000000000 + timelineImpl.uNsec
    let lTimelinetime := timelinetime
      + timelineImpl.lMult * (coretime - timelineImpl.last) / 1000000000 + timelineImpl.lNsec
    ⟨tpFromNsec timelinetime, tpFromNsec uTimelinetime, tpFromNsec lTimelinetime⟩

/-- `TIMELINE_REMOTE_TO_CORE`. -/
def timelineRemoteToCore (type : QotTimelineType) (timelineImpl clkglParams : TlTranslation)
    (tp : Timepoint) : Timepoint :=
  match type with
  | .qotTimelineLocal => tpFromNsec (qotRem2loc timelineImpl false (tpToNsec tp))
  | .qotTimelineGlobal => tpFromNsec (qotGlRem2loc clkglParams false (tpToNsec tp))

/-- `QOTUSR_OUTPUT_COMPARE_ENABLE`: the start and the period handed to the clock. -/
def qotusrOutputCompareEnable (timelineImpl : TlTranslation) (start : Timepoint)
    (period : Timelength) : Timepoint × Timelength :=
  let corePeriod := qotRem2loc timelineImpl true (tlToNsec period).toInt64
  let coreStart := qotRem2loc timelineImpl false (tpToNsec start)
  (tpFromNsec coreStart, tlFromNsec corePeriod.toUInt64)

/-- The time stamp `qot_perout_notify` puts into the event, and sends back to the driver. -/
def qotPeroutNotify (timelineImpl : TlTranslation) (eventCoreTimestamp : Timepoint) : Timepoint :=
  tpFromNsec (qotLoc2rem timelineImpl false (tpToNsec eventCoreTimestamp))

/-- The time `QOTUSR_WAIT_UNTIL` reports, when the clock it reads shows `core`. -/
def qotusrWaitUntilTime (type : QotTimelineType) (timelineImpl clkglParams : TlTranslation)
    (core : Timepoint) : Timepoint :=
  match type with
  | .qotTimelineLocal => tpFromNsec (qotLoc2rem timelineImpl false (tpToNsec core))
  | .qotTimelineGlobal => (qotClockGlGetTime clkglParams (tpToNsec core)).estimate

/-! ## Conversions -/

theorem tpFromNsec_inj {a b : Int64} : tpFromNsec a = tpFromNsec b ↔ a = b := by
  constructor
  · intro h
    rw [← tpToNsec_tpFromNsec a, h, tpToNsec_tpFromNsec]
  · rintro rfl
    rfl

theorem timelineCoreToRemote_estimate (type : QotTimelineType)
    (timelineImpl clkglParams : TlTranslation) (stp : Timepoint) :
    (timelineCoreToRemote type timelineImpl clkglParams stp).estimate
      = tpFromNsec (loc2rem (mappingInForce type timelineImpl clkglParams) false
        (tpToNsec stp)) := by
  cases type <;> rfl

/-- The estimate of a global reading is not touched by the interval it is given. -/
theorem qotClockGlGetTime_estimate (clkglParams : TlTranslation) (ns : Int64) :
    (qotClockGlGetTime clkglParams ns).estimate = tpFromNsec (loc2rem clkglParams false ns) := by
  rw [qotClockGlGetTime_eq]
  exact timepointAdd_zero (tpFromNsec_normalised _)

theorem qotusrWaitUntilTime_eq (type : QotTimelineType) (timelineImpl clkglParams : TlTranslation)
    (core : Timepoint) :
    qotusrWaitUntilTime type timelineImpl clkglParams core
      = tpFromNsec (loc2rem (mappingInForce type timelineImpl clkglParams) false
          (tpToNsec core)) := by
  cases type with
  | qotTimelineLocal => rfl
  | qotTimelineGlobal => exact qotClockGlGetTime_estimate clkglParams (tpToNsec core)

/-- All call sites convert the timeline time `t` and the core time `c` alike: to core time for a
periodic output of any period, the conversion call and the scheduler, to timeline time for the
report after a wait, the event of a periodic output and the conversion call. -/
structure OneMapping (type : QotTimelineType) (timelineImpl clkglParams : TlTranslation)
    (t c : Timepoint) : Prop where
  output : ∀ period, (qotusrOutputCompareEnable timelineImpl t period).1
    = timelineRemoteToCore type timelineImpl clkglParams t
  scheduler : qotRemoteToCore type timelineImpl clkglParams t
    = timelineRemoteToCore type timelineImpl clkglParams t
  wait : qotusrWaitUntilTime type timelineImpl clkglParams c
    = (timelineCoreToRemote type timelineImpl clkglParams c).estimate
  event : qotPeroutNotify timelineImpl c
    = (timelineCoreToRemote type timelineImpl clkglParams c).estimate

theorem oneMapping_local (timelineImpl clkglParams : TlTranslation) (t c : Timepoint) :
    OneMapping .qotTimelineLocal timelineImpl clkglParams t c where
  output _ := rfl
  scheduler := rfl
  wait := rfl
  event := rfl

/-- On a global timeline the scheduler, the conversion calls and the report after a wait agree; the
two ends of a periodic output depend on the timeline's own parameters. -/
theorem oneMapping_global_iff (timelineImpl clkglParams : TlTranslation) (t c : Timepoint) :
    OneMapping .qotTimelineGlobal timelineImpl clkglParams t c
      ↔ rem2loc timelineImpl false (tpToNsec t) = rem2loc clkglParams false (tpToNsec t)
        ∧ loc2rem timelineImpl false (tpToNsec c) = loc2rem clkglParams false (tpToNsec c) := by
  have hwait : qotusrWaitUntilTime .qotTimelineGlobal timelineImpl clkglParams c
      = (timelineCoreToRemote .qotTimelineGlobal timelineImpl clkglParams c).estimate := by
    rw [qotusrWaitUntilTime_eq, timelineCoreToRemote_estimate]
  rw [← tpFromNsec_inj, ← tpFromNsec_inj (a := loc2rem _ _ _)]
  constructor
  · intro h
    exact ⟨h.output ⟨0, 0⟩, h.event⟩
  · rintro ⟨houtput, hevent⟩
    exact ⟨fun _ => houtput, rfl, hwait, hevent⟩

/-! Nothing ever disciplines the own parameters of a global timeline: they stay as registration
left them, and convert nothing. -/

theorem loc2rem_initTranslation (v : Int64) : loc2rem initTranslation false v = v := by
  simp [loc2rem, initTranslation]

theorem rem2loc_initTranslation (v : Int64) : rem2loc initTranslation false v = v := by
  apply Int64.toInt_inj.mp
  rw [toInt_rem2loc (by decide)]
  have hlag : initTranslation.lag (v.toInt - initTranslation.nsec.toInt) = 0 := by
    unfold TlTranslation.lag
    rw [show initTranslation.mult.toInt = 0 from rfl, zero_mul]
  rw [hlag, show initTranslation.last.toInt = 0 from rfl,
    show initTranslation.nsec.toInt = 0 from rfl, zero_add, sub_zero, sub_zero,
    wrap64_of_fits (fits_toInt v)]

/-- **The call sites agree exactly on local timelines, and on global ones where the timeline's own
parameters and the global ones happen to convert both times alike.** Since the own parameters of a
global timeline are those of its registration, there they agree exactly for the times that the
global clock does not move. -/
theorem one_mapping_iff (type : QotTimelineType) (timelineImpl clkglParams : TlTranslation)
    (t c : Timepoint) :
    (OneMapping type timelineImpl clkglParams t c
      ↔ type = .qotTimelineLocal
        ∨ (rem2loc timelineImpl false (tpToNsec t) = rem2loc clkglParams false (tpToNsec t)
          ∧ loc2rem timelineImpl false (tpToNsec c) = loc2rem clkglParams false (tpToNsec c)))
      ∧ (OneMapping .qotTimelineGlobal initTranslation clkglParams t c
        ↔ rem2loc clkglParams false (tpToNsec t) = tpToNsec t
          ∧ loc2rem clkglParams false (tpToNsec c) = tpToNsec c) := by
  constructor
  · cases type with
    | qotTimelineLocal =>
      exact ⟨fun _ => Or.inl rfl, fun _ => oneMapping_local timelineImpl clkglParams t c⟩
    | qotTimelineGlobal =>
      rw [or_iff_right (by decide)]
      exact oneMapping_global_iff timelineImpl clkglParams t c
  · rw [oneMapping_global_iff, rem2loc_initTranslation, loc2rem_initTranslation]
    exact and_congr eq_comm eq_comm

/-- **A periodic output on a global timeline ignores the global clock.** With the global clock set
five seconds ahead, an output due at 7 s is programmed at core time 7 s, the scheduler wakes a
sleeper at core time 2 s, and the event of core time 2 s is stamped 2 s instead of 7 s. -/
theorem one_mapping_fails_on_global :
    (qotusrOutputCompareEnable initTranslation ⟨7, 0⟩ ⟨1, 0⟩).1 = ⟨7, 0⟩
      ∧ timelineRemoteToCore .qotTimelineGlobal initTranslation
          { initTranslation with nsec := 5000000000 } ⟨7, 0⟩ = ⟨2, 0⟩
      ∧ qotPeroutNotify initTranslation ⟨2, 0⟩ = ⟨2, 0⟩
      ∧ (timelineCoreToRemote .qotTimelineGlobal initTranslation
          { initTranslation with nsec := 5000000000 } ⟨2, 0⟩).estimate = ⟨7, 0⟩
      ∧ ¬ OneMapping .qotTimelineGlobal initTranslation
          { initTranslation with nsec := 5000000000 } ⟨7, 0⟩ ⟨2, 0⟩ := by
  refine ⟨by decide, by decide, by decide, by decide, fun h => ?_⟩
  exact absurd h.event (by decide)

/-! ## Bounds -/

/-- The two ends of the conversion lie as far from its estimate as the interval of the reading
reaches, around the same estimate. -/
structure BoundsAgree (stp : Stimepoint) (utp : Utimepoint) : Prop where
  estimate : stp.estimate = utp.estimate
  above : stp.uEstimate.value - stp.estimate.value = utp.interval.above.value
  below : stp.estimate.value - stp.lEstimate.value = utp.interval.below.value

/-- Bounds that enclose the estimate, with drifts that fit the 32 bits they are stored through. -/
structure BoundsStorable (bounds : QotBounds) : Prop where
  uDrift : 0 ≤ bounds.uDrift.toInt ∧ bounds.uDrift.toInt < 2147483648
  lDrift : -2147483648 ≤ bounds.lDrift.toInt ∧ bounds.lDrift.toInt ≤ 0
  uNsec : 0 ≤ bounds.uNsec.toInt
  lNsec : bounds.lNsec.toInt ≤ 0

/-- Nothing overflows at core time `c` in reading through `m`, in the widths of `m`, or in the ends
`own` puts around that reading. -/
structure BoundsFit (own m : TlTranslation) (c : Int) : Prop where
  reading : Loc2remFits m c
  widths : SyncWidthsFit m c
  below : Fits64 (-m.lowerWidth c)
  ownWidths : SyncWidthsFit own c
  upper : Fits64 (m.reading c + own.upperWidth c)
  lower : Fits64 (m.reading c + own.lowerWidth c)

theorem setUncertainty_signs {bounds : QotBounds} (h : BoundsStorable bounds) {m : TlTranslation}
    {c : Int} (hc : m.last.toInt ≤ c) :
    0 ≤ (setUncertainty m bounds).upperWidth c ∧ (setUncertainty m bounds).lowerWidth c ≤ 0 := by
  have hthrough : ∀ x : Int64, -2147483648 ≤ x.toInt → x.toInt < 2147483648 →
      x.toInt32.toInt64.toInt = x.toInt := by
    intro x hlo hhi
    rw [Int32.toInt_toInt64, Int64.toInt_toInt32, bmod_eq_wrap32]
    unfold wrap32
    omega
  obtain ⟨hu0, hu1⟩ := h.uDrift
  obtain ⟨hl0, hl1⟩ := h.lDrift
  have hun := h.uNsec
  have hln := h.lNsec
  have hd : 0 ≤ c - m.last.toInt := by omega
  unfold TlTranslation.upperWidth TlTranslation.lowerWidth
  simp only [setUncertainty]
  rw [hthrough _ (by omega) hu1, hthrough _ hl0 (by omega)]
  constructor
  · have hquot := Int.tdiv_nonneg (mul_nonneg hu0 hd) (show (0 : Int) ≤ 1000000000 by omega)
    omega
  · have hquot := Int.tdiv_nonneg (mul_nonneg (neg_nonneg.mpr hl1) hd)
      (show (0 : Int) ≤ 1000000000 by omega)
    rw [neg_mul, Int.neg_tdiv] at hquot
    omega

section Bounds

variable {type : QotTimelineType} {timelineImpl clkglParams m : TlTranslation} {c : Int64}
  (hm : mappingInForce type timelineImpl clkglParams = m) (h : BoundsFit timelineImpl m c.toInt)

include hm h

/-- What the conversion call returns: the reading through the mapping in force, with the widths of
the timeline's own parameters. -/
theorem timelineCoreToRemote_values :
    let stp := timelineCoreToRemote type timelineImpl clkglParams (tpFromNsec c)
    stp.estimate = tpFromNsec (loc2rem m false c)
      ∧ stp.uEstimate.value - stp.estimate.value = timelineImpl.upperWidth c.toInt * 1000000000
      ∧ stp.estimate.value - stp.lEstimate.value
        = -timelineImpl.lowerWidth c.toInt * 1000000000 := by
  obtain ⟨hu, hl⟩ := toInt_widths h.ownWidths
  have hv := toInt_loc2rem h.reading
  have hupper := h.upper
  have hlower := h.lower
  rw [← hv, ← hu] at hupper
  rw [← hv, ← hl] at hlower
  have hfields : timelineCoreToRemote type timelineImpl clkglParams (tpFromNsec c)
      = ⟨tpFromNsec (loc2rem m false c),
        tpFromNsec (loc2rem m false c
          + (timelineImpl.uMult * (c - timelineImpl.last) / 1000000000 + timelineImpl.uNsec)),
        tpFromNsec (loc2rem m false c
          + (timelineImpl.lMult * (c - timelineImpl.last) / 1000000000
            + timelineImpl.lNsec))⟩ := by
    subst hm
    cases type <;>
      simp only [timelineCoreToRemote, tpToNsec_tpFromNsec, Int64.add_assoc] <;> rfl
  rw [hfields]
  simp only [tpFromNsec_value]
  rw [toInt_add_of_fits hupper, toInt_add_of_fits hlower, hu, hl]
  exact ⟨trivial, by ring, by ring⟩

variable (hpos : 0 ≤ m.upperWidth c.toInt) (hneg : m.lowerWidth c.toInt ≤ 0)

include hpos hneg

/-- What the time query returns, on either kind of timeline. -/
theorem timelineGetTimeNow_values :
    let utp := timelineGetTimeNow type zeroLatency timelineImpl clkglParams c
    utp.estimate = tpFromNsec (loc2rem m false c)
      ∧ HasWidths utp.interval (-m.lowerWidth c.toInt) (m.upperWidth c.toInt) := by
  subst hm
  cases type with
  | qotTimelineLocal =>
    exact timelineGetTimeNowLocal_widths h.reading h.widths h.upper h.lower hpos hneg h.below
  | qotTimelineGlobal => exact qotClockGlGetTime_widths h.widths hpos hneg h.below

theorem boundsAgree_iff :
    BoundsAgree (timelineCoreToRemote type timelineImpl clkglParams (tpFromNsec c))
        (timelineGetTimeNow type zeroLatency timelineImpl clkglParams c)
      ↔ timelineImpl.upperWidth c.toInt = m.upperWidth c.toInt
        ∧ timelineImpl.lowerWidth c.toInt = m.lowerWidth c.toInt := by
  obtain ⟨hcore, hup, hlow⟩ := timelineCoreToRemote_values hm h
  obtain ⟨hest, hbelow, habove⟩ := timelineGetTimeNow_values hm h hpos hneg
  constructor
  · intro hagree
    have ha := hagree.above
    have hb := hagree.below
    rw [hup, habove] at ha
    rw [hlow, hbelow] at hb
    omega
  · rintro ⟨heq, heq'⟩
    refine ⟨by rw [hcore, hest], ?_, ?_⟩
    · rw [hup, habove, heq]
    · rw [hlow, hbelow, heq']

end Bounds

/-- **Conversion and reading report the same bounds exactly on local timelines, and on global ones
whose own parameters give the widths of the published bounds at that moment.** -/
theorem core_to_remote_bounds_iff (type : QotTimelineType)
    (timelineImpl clkglParams : TlTranslation) (bounds : QotBounds) (c : Int64)
    (hbounds : BoundsStorable bounds)
    (hc : (mappingInForce type timelineImpl clkglParams).last.toInt ≤ c.toInt)
    {published : TlTranslation × TlTranslation}
    (hset : published = timelineSetSyncUncertainty type timelineImpl clkglParams bounds)
    (hfits : BoundsFit published.1 (mappingInForce type published.1 published.2) c.toInt) :
    BoundsAgree (timelineCoreToRemote type published.1 published.2 (tpFromNsec c))
        (timelineGetTimeNow type zeroLatency published.1 published.2 c)
      ↔ type = .qotTimelineLocal
        ∨ (timelineImpl.upperWidth c.toInt = (setUncertainty clkglParams bounds).upperWidth c.toInt
          ∧ timelineImpl.lowerWidth c.toInt
            = (setUncertainty clkglParams bounds).lowerWidth c.toInt) := by
  subst hset
  cases type with
  | qotTimelineLocal =>
    obtain ⟨hpos, hneg⟩ := setUncertainty_signs hbounds hc
    refine ⟨fun _ => Or.inl rfl, fun _ => ?_⟩
    exact (boundsAgree_iff rfl hfits hpos hneg).mpr ⟨rfl, rfl⟩
  | qotTimelineGlobal =>
    obtain ⟨hpos, hneg⟩ := setUncertainty_signs hbounds hc
    rw [or_iff_right (by decide)]
    exact boundsAgree_iff rfl hfits hpos hneg

/-- A drift of ten parts per billion and a margin of a hundred nanoseconds. -/
def smallBounds : QotBounds := ⟨10, -10, 100, -100⟩

theorem smallBounds_storable : BoundsStorable smallBounds :=
  ⟨by decide, by decide, by decide, by decide⟩

theorem smallBounds_fit (own : TlTranslation)
    (h : own = initTranslation ∨ own = setUncertainty initTranslation smallBounds) :
    BoundsFit own (setUncertainty initTranslation smallBounds) (1000 : Int64).toInt := by
  refine ⟨⟨by decide, by decide, by decide, by decide⟩,
    ⟨by decide, by decide, by decide, by decide, by decide⟩, by decide, ?_, ?_, ?_⟩
  · rcases h with rfl | rfl <;> exact ⟨by decide, by decide, by decide, by decide, by decide⟩
  · rcases h with rfl | rfl <;> decide
  · rcases h with rfl | rfl <;> decide

theorem core_to_remote_bounds_iff_small :
    BoundsAgree
      (timelineCoreToRemote .qotTimelineLocal (setUncertainty initTranslation smallBounds)
        initTranslation (tpFromNsec 1000))
      (timelineGetTimeNow .qotTimelineLocal zeroLatency
        (setUncertainty initTranslation smallBounds) initTranslation 1000) :=
  (core_to_remote_bounds_iff .qotTimelineLocal initTranslation initTranslation smallBounds 1000
    smallBounds_storable (by decide) rfl (smallBounds_fit _ (Or.inr rfl))).mpr (Or.inl rfl)

/-- **On a global timeline the conversion reports no uncertainty at all**, while the reading
reports the published hundred nanoseconds to both sides. -/
theorem core_to_remote_bounds_lost :
    BoundsStorable smallBounds
      ∧ timelineSetSyncUncertainty .qotTimelineGlobal initTranslation initTranslation smallBounds
        = (initTranslation, setUncertainty initTranslation smallBounds)
      ∧ BoundsFit initTranslation (setUncertainty initTranslation smallBounds)
        (1000 : Int64).toInt
      ∧ timelineCoreToRemote .qotTimelineGlobal initTranslation
          (setUncertainty initTranslation smallBounds) (tpFromNsec 1000)
        = ⟨tpFromNsec 1000, tpFromNsec 1000, tpFromNsec 1000⟩
      ∧ timelineGetTimeNow .qotTimelineGlobal zeroLatency initTranslation
          (setUncertainty initTranslation smallBounds) 1000
        = ⟨tpFromNsec 1000, ⟨tlFromNsec 100, tlFromNsec 100⟩⟩
      ∧ ¬ BoundsAgree
        (timelineCoreToRemote .qotTimelineGlobal initTranslation
          (setUncertainty initTranslation smallBounds) (tpFromNsec 1000))
        (timelineGetTimeNow .qotTimelineGlobal zeroLatency initTranslation
          (setUncertainty initTranslation smallBounds) 1000) := by
  refine ⟨smallBounds_storable, rfl, smallBounds_fit _ (Or.inl rfl), by decide, by decide,
    fun h => ?_⟩
  exact absurd h.above (by decide)

end Qot
