import QotStack.User.Connection

/-!
# QotStack — timestamps of an input pin (`timeline_read_pin_timestamps`)

The library reads the hardware timestamp of a pin, puts it into the event of the caller, and lets
`TIMELINE_CORE_TO_REMOTE` convert it in place. The kernel takes the address for that of a
`stimepoint_t`, an estimate with an upper and a lower bound; what is there is a `utimepoint_t`, an
estimate with a length below and a length above it. Both are six words, so nothing else in the event
is touched and the estimate comes out right. But the upper bound lands where the length below is
read, and the lower bound where the length above is.

`pin_timestamp_iff` says when the two absolute times happen to be the right lengths.
-/

namespace Qot

open MachineInt

/-! ## Structures as words -/

def Timepoint.words (t : Timepoint) : List UInt64 := [t.sec.toUInt64, t.asec]

def Timelength.words (l : Timelength) : List UInt64 := [l.sec, l.asec]

def Utimepoint.words (u : Utimepoint) : List UInt64 :=
  u.estimate.words ++ u.interval.below.words ++ u.interval.above.words

def Stimepoint.words (s : Stimepoint) : List UInt64 :=
  s.estimate.words ++ s.uEstimate.words ++ s.lEstimate.words

/-- Read a `utimepoint_t`. -/
def Utimepoint.ofWords : List UInt64 → Option Utimepoint
  | estSec :: estAsec :: belowSec :: belowAsec :: aboveSec :: aboveAsec :: _ =>
    some ⟨⟨estSec.toInt64, estAsec⟩, ⟨⟨belowSec, belowAsec⟩, ⟨aboveSec, aboveAsec⟩⟩⟩
  | _ => none

/-- Read a `stimepoint_t`. -/
def Stimepoint.ofWords : List UInt64 → Option Stimepoint
  | estSec :: estAsec :: uSec :: uAsec :: lSec :: lAsec :: _ =>
    some ⟨⟨estSec.toInt64, estAsec⟩, ⟨uSec.toInt64, uAsec⟩, ⟨lSec.toInt64, lAsec⟩⟩
  | _ => none

/-- Write words over the start of a piece of memory. -/
def copyToUser (mem new : List UInt64) : List UInt64 := new ++ mem.drop new.length

/-- The point in time as a length, by its words. -/
def Timepoint.asLength (t : Timepoint) : Timelength := ⟨t.sec.toUInt64, t.asec⟩

/-- The kernel finds the estimate where the library has put it. -/
theorem Stimepoint.ofWords_utimepoint (u : Utimepoint) :
    ∃ upper lower, Stimepoint.ofWords u.words = some ⟨u.estimate, upper, lower⟩ := by
  refine ⟨⟨u.interval.below.sec.toInt64, u.interval.below.asec⟩,
    ⟨u.interval.above.sec.toInt64, u.interval.above.asec⟩, ?_⟩
  show some (⟨⟨u.estimate.sec.toUInt64.toInt64, u.estimate.asec⟩, _, _⟩ : Stimepoint) = _
  rw [Int64.toInt64_toUInt64]

/-- The library finds the upper bound below the estimate, and the lower bound above it. -/
theorem Utimepoint.ofWords_stimepoint (s : Stimepoint) :
    Utimepoint.ofWords s.words
      = some ⟨s.estimate, ⟨s.uEstimate.asLength, s.lEstimate.asLength⟩⟩ := by
  show some (⟨⟨s.estimate.sec.toUInt64.toInt64, s.estimate.asec⟩, _⟩ : Utimepoint) = _
  rw [Int64.toInt64_toUInt64]
  rfl

/-- A `stimepoint_t` is as long as a `utimepoint_t`: all of it is overwritten, and no more. -/
theorem copyToUser_stimepoint (u : Utimepoint) (s : Stimepoint) (rest : List UInt64) :
    copyToUser (u.words ++ rest) s.words = s.words ++ rest := rfl

/-! ## The call -/

/-- `TIMELINE_CORE_TO_REMOTE` on what is at the address it is given. -/
def timelineCoreToRemoteAt (type : QotTimelineType) (timelineImpl clkglParams : TlTranslation)
    (mem : List UInt64) : Option (List UInt64) :=
  (Stimepoint.ofWords mem).map fun stp =>
    copyToUser mem (timelineCoreToRemote type timelineImpl clkglParams stp.estimate).words

/-- The hardware timestamp (`ptp_extts_event`) as the library enters it into the event. -/
def PtpClockTime.timepoint (t : PtpClockTime) : Timepoint := ⟨t.sec, t.nsec.toUInt64 * nSecPerSec⟩

/-- `timeline_read_pin_timestamps`. `opened` is whether there is a timeline with both files open,
`t` what is in the buffer after `read`, whose failure is only reported, `copies` whether the kernel
can copy from and to the event. The flag is whether it returns `QOT_RETURN_TYPE_OK`. -/
def timelineReadPinTimestamps (opened : Bool) (t : PtpClockTime) (copies : Bool)
    (type : QotTimelineType) (timelineImpl clkglParams : TlTranslation) (event : QotEvent) :
    Bool × QotEvent :=
  if opened then
    let event := { event with
      type := .qotEventExternalTimestamp
      timestamp := { event.timestamp with estimate := t.timepoint } }
    let mem := if copies then
        timelineCoreToRemoteAt type timelineImpl clkglParams event.timestamp.words
      else none
    match mem.bind Utimepoint.ofWords with
    | some timestamp => (true, { event with timestamp := timestamp })
    | none => (false, event)
  else (false, event)

/-! ## What it returns -/

/-- The event that is returned: the bounds have become lengths. -/
theorem timelineReadPinTimestamps_eq (t : PtpClockTime) (type : QotTimelineType)
    (timelineImpl clkglParams : TlTranslation) (event : QotEvent) :
    timelineReadPinTimestamps true t true type timelineImpl clkglParams event
      = (true, ⟨.qotEventExternalTimestamp,
          ⟨(timelineCoreToRemote type timelineImpl clkglParams t.timepoint).estimate,
            ⟨(timelineCoreToRemote type timelineImpl clkglParams t.timepoint).uEstimate.asLength,
              (timelineCoreToRemote type timelineImpl clkglParams t.timepoint).lEstimate.asLength⟩⟩,
          event.data⟩) := by
  obtain ⟨upper, lower, hread⟩ :=
    Stimepoint.ofWords_utimepoint ⟨t.timepoint, event.timestamp.interval⟩
  have hcopy := copyToUser_stimepoint ⟨t.timepoint, event.timestamp.interval⟩
    (timelineCoreToRemote type timelineImpl clkglParams t.timepoint) []
  rw [List.append_nil, List.append_nil] at hcopy
  simp only [timelineReadPinTimestamps, timelineCoreToRemoteAt, if_true, hread, Option.map_some,
    hcopy, Option.bind_some, Utimepoint.ofWords_stimepoint]

/-- It succeeds only with both files open and both copies made. -/
theorem timelineReadPinTimestamps_ok {opened copies : Bool} {t : PtpClockTime}
    {type : QotTimelineType} {timelineImpl clkglParams : TlTranslation} {event event' : QotEvent}
    (h : timelineReadPinTimestamps opened t copies type timelineImpl clkglParams event
      = (true, event')) : opened = true ∧ copies = true := by
  unfold timelineReadPinTimestamps at h
  cases opened with
  | false => simp at h
  | true =>
    cases copies with
    | false => simp at h
    | true => exact ⟨rfl, rfl⟩

/-! ## When the lengths are right -/

/-- **The event carries the converted timestamp**: the estimate is the timeline time, the interval
has the ends that the conversion computes, and besides these only the type is set. -/
structure PinCorrect (stp : Stimepoint) (event event' : QotEvent) : Prop where
  estimate : event'.timestamp.estimate = stp.estimate
  lower : event'.timestamp.estimate.value - event'.timestamp.interval.below.value
    = stp.lEstimate.value
  upper : event'.timestamp.estimate.value + event'.timestamp.interval.above.value
    = stp.uEstimate.value
  type : event'.type = .qotEventExternalTimestamp
  data : event'.data = event.data

/-- The value of nanoseconds read as a length: negative ones come out too long by the range of the
seconds. -/
theorem value_asLength_tpFromNsec (n : Int64) :
    (tpFromNsec n).asLength.value
      = n.toInt * 1000000000 + if n.toInt < 0 then 18446744073709551616000000000000000000
        else 0 := by
  have hsec := tpFromNsec_sec n
  have hasec := tpFromNsec_asec n
  have hn := fits_toInt n
  show ((tpFromNsec n).sec.toUInt64.toNat : Int) * 1000000000000000000 + (tpFromNsec n).asec.toNat
    = _
  rw [toNat_toUInt64]
  split <;> omega

/-- Two absolute times are the lengths between three only if the upper is the estimate and the lower
is zero. -/
theorem bounds_as_lengths_iff (e u l : Int64) :
    ((tpFromNsec e).value - (tpFromNsec u).asLength.value = (tpFromNsec l).value
        ∧ (tpFromNsec e).value + (tpFromNsec l).asLength.value = (tpFromNsec u).value)
      ↔ 0 ≤ e.toInt ∧ u = e ∧ l = 0 := by
  have he := fits_toInt e
  have hu := fits_toInt u
  have hl := fits_toInt l
  have h0 : (0 : Int64).toInt = 0 := rfl
  rw [value_asLength_tpFromNsec, value_asLength_tpFromNsec, tpFromNsec_value, tpFromNsec_value,
    tpFromNsec_value, ← Int64.toInt_inj, ← Int64.toInt_inj, h0]
  constructor
  · -- the sum of the two equations has the upper bound equal to the estimate
    rintro ⟨hlower, hupper⟩
    split at hlower <;> split at hupper <;> omega
  · rintro ⟨hpos, hue, hl0⟩
    rw [hue, hl0, if_neg (by omega), if_neg (by omega)]
    omega

section Terms

variable (type : QotTimelineType) (timelineImpl clkglParams : TlTranslation) (c : Int64)

/-- What the conversion adds to the timeline time for the upper bound. -/
def upperTerm : Int64 :=
  timelineImpl.uMult * (c - timelineImpl.last) / 1000000000 + timelineImpl.uNsec

def lowerTerm : Int64 :=
  timelineImpl.lMult * (c - timelineImpl.last) / 1000000000 + timelineImpl.lNsec

/-- The timeline time of the core time `c`. -/
def timelineTimeOf : Int64 := loc2rem (mappingInForce type timelineImpl clkglParams) false c

theorem timelineCoreToRemote_eq (stp : Timepoint) :
    timelineCoreToRemote type timelineImpl clkglParams stp
      = ⟨tpFromNsec (timelineTimeOf type timelineImpl clkglParams (tpToNsec stp)),
        tpFromNsec (timelineTimeOf type timelineImpl clkglParams (tpToNsec stp)
          + upperTerm timelineImpl (tpToNsec stp)),
        tpFromNsec (timelineTimeOf type timelineImpl clkglParams (tpToNsec stp)
          + lowerTerm timelineImpl (tpToNsec stp))⟩ := by
  have hassoc : ∀ a b d : Int64, a + b + d = a + (b + d) := Int64.add_assoc
  unfold upperTerm lowerTerm timelineTimeOf
  rw [← hassoc, ← hassoc]
  cases type with
  | qotTimelineLocal => rfl
  | qotTimelineGlobal => rfl

end Terms

/-- **A pin timestamp is right** exactly if the upper term is zero and the lower bound is the origin
of the timeline. The estimate and the other fields are always right. -/
theorem pin_timestamp_iff (opened : Bool) (t : PtpClockTime) (copies : Bool)
    (type : QotTimelineType) (timelineImpl clkglParams : TlTranslation) (event event' : QotEvent)
    (h : timelineReadPinTimestamps opened t copies type timelineImpl clkglParams event
      = (true, event')) :
    (event'.timestamp.estimate
        = tpFromNsec (timelineTimeOf type timelineImpl clkglParams (tpToNsec t.timepoint))
      ∧ event'.type = .qotEventExternalTimestamp ∧ event'.data = event.data)
      ∧ (PinCorrect (timelineCoreToRemote type timelineImpl clkglParams t.timepoint) event event'
        ↔ 0 ≤ (timelineTimeOf type timelineImpl clkglParams (tpToNsec t.timepoint)).toInt
          ∧ upperTerm timelineImpl (tpToNsec t.timepoint) = 0
          ∧ timelineTimeOf type timelineImpl clkglParams (tpToNsec t.timepoint)
            + lowerTerm timelineImpl (tpToNsec t.timepoint) = 0) := by
  obtain ⟨rfl, rfl⟩ := timelineReadPinTimestamps_ok h
  rw [timelineReadPinTimestamps_eq, timelineCoreToRemote_eq] at h
  rw [timelineCoreToRemote_eq]
  -- from here on only the three numbers matter
  generalize timelineTimeOf type timelineImpl clkglParams (tpToNsec t.timepoint) = e at h ⊢
  generalize upperTerm timelineImpl (tpToNsec t.timepoint) = u at h ⊢
  generalize lowerTerm timelineImpl (tpToNsec t.timepoint) = l at h ⊢
  obtain rfl := (Prod.mk.inj h).2
  refine ⟨⟨rfl, rfl, rfl⟩, ?_⟩
  have hiff := bounds_as_lengths_iff e (e + u) (e + l)
  rw [Int64.add_eq_left] at hiff
  rw [← hiff]
  exact ⟨fun h => ⟨h.lower, h.upper⟩, fun h => ⟨rfl, h.1, h.2, rfl, rfl⟩⟩

/-- The bounds of a timeline that is within so many nanoseconds of the core clock. -/
def boundedMapping (uNsec lNsec : Int64) : TlTranslation :=
  { initTranslation with uNsec := uNsec, lNsec := lNsec }

def pinEvent : QotEvent := ⟨.qotEventTimelineCreate, Utimepoint.zero, nameA⟩

/-- Ten seconds with no uncertainty above and ten seconds below. -/
theorem pin_timestamp_iff_origin :
    PinCorrect
      (timelineCoreToRemote .qotTimelineLocal (boundedMapping 0 (-10000000000)) initTranslation
        ⟨10, 0⟩)
      pinEvent ⟨.qotEventExternalTimestamp, ⟨⟨10, 0⟩, ⟨⟨10, 0⟩, ⟨0, 0⟩⟩⟩, nameA⟩ :=
  ((pin_timestamp_iff true ⟨10, 0⟩ true .qotTimelineLocal (boundedMapping 0 (-10000000000))
    initTranslation pinEvent _ (by decide)).2).mpr (by decide)

/-- Ten seconds to within a hundred nanoseconds: the event says it may be ten seconds off, on both
sides. -/
theorem pin_timestamp_wrong :
    timelineCoreToRemote .qotTimelineLocal (boundedMapping 100 (-100)) initTranslation ⟨10, 0⟩
        = ⟨⟨10, 0⟩, ⟨10, 100000000000⟩, ⟨9, 999999900000000000⟩⟩
      ∧ timelineReadPinTimestamps true ⟨10, 0⟩ true .qotTimelineLocal (boundedMapping 100 (-100))
          initTranslation pinEvent
        = (true, ⟨.qotEventExternalTimestamp,
            ⟨⟨10, 0⟩, ⟨⟨10, 100000000000⟩, ⟨9, 999999900000000000⟩⟩⟩, nameA⟩)
      ∧ ¬ PinCorrect
          (timelineCoreToRemote .qotTimelineLocal (boundedMapping 100 (-100)) initTranslation
            ⟨10, 0⟩)
          pinEvent
          ⟨.qotEventExternalTimestamp, ⟨⟨10, 0⟩, ⟨⟨10, 100000000000⟩, ⟨9, 999999900000000000⟩⟩⟩,
            nameA⟩ := by
  refine ⟨by decide, by decide, fun h => ?_⟩
  have hlower := h.lower
  revert hlower
  decide

end Qot
