import QotStack.Clock.Projection

/-!
# QotStack — the two expiry tests of the scheduler

The interrupt path converts the current core time to the timeline and compares there; the update
and start paths convert the expiry to core time and compare there. `ExpiryTestsAgree` is what the
scheduler relies on: outside a two-nanosecond band around the current timeline time both tests
give the obvious answer.

The conversion of an expiry divides its distance from the last discipline point by the rate and
leaves the rest as it is. `ExpiryConverts` compares quotient and rest of the expiry with the whole
seconds and the rest of the elapsed time, and for an expiry before the discipline point, whose
distance is taken for one of almost `2 ^ 64` nanoseconds, the correction of that with the time it
has been over. `expiryTestsAgree_iff`: the tests agree if it holds, and where the conversion stays
in 64 bits only then.
-/

namespace Qot

open MachineInt

section Tests

variable (type : QotTimelineType) (timelineImpl clkglParams : TlTranslation)

/-- The test of `scheduler_interface_interrupt`: the expiry is earlier than the converted current
time. -/
abbrev expiredOnTimeline (currentCoreTime expires : Timepoint) : Prop :=
  timepointCmp expires (qotCoreToRemote type timelineImpl clkglParams currentCoreTime) > 0

/-- The test of `qot_scheduler_update` and `qot_sleeper_start_expires`: the converted expiry is
earlier than the current time. -/
abbrev expiredOnCore (currentCoreTime expires : Timepoint) : Prop :=
  timepointCmp (qotRemoteToCore type timelineImpl clkglParams expires) currentCoreTime > 0

/-- Whatever sorts before an expired expiry has expired. -/
theorem expiredOnTimeline_mono {type : QotTimelineType} {timelineImpl clkglParams : TlTranslation}
    {c e e' : Timepoint} (h : e.rank ≤ e'.rank)
    (hexp : expiredOnTimeline type timelineImpl clkglParams c e') :
    expiredOnTimeline type timelineImpl clkglParams c e := by
  unfold expiredOnTimeline at hexp ⊢
  rw [timepointCmp_pos] at hexp ⊢
  exact lt_of_le_of_lt h hexp

/-- Outside the band of two nanoseconds around the current timeline time, both tests say what the
values say. -/
def ExpiryTestsAgree (currentCoreTime expires : Timepoint) : Prop :=
  (expires.value + 2000000000
        ≤ (qotCoreToRemote type timelineImpl clkglParams currentCoreTime).value →
      expiredOnTimeline type timelineImpl clkglParams currentCoreTime expires
        ∧ expiredOnCore type timelineImpl clkglParams currentCoreTime expires)
    ∧ ((qotCoreToRemote type timelineImpl clkglParams currentCoreTime).value + 2000000000
        ≤ expires.value →
      ¬ expiredOnTimeline type timelineImpl clkglParams currentCoreTime expires
        ∧ ¬ expiredOnCore type timelineImpl clkglParams currentCoreTime expires)

end Tests

/-! ## The converted expiry -/

/-- The expiry in whole nanoseconds, relative to the last discipline point. -/
def TlTranslation.distance (m : TlTranslation) (e : Timepoint) : Int :=
  e.value / 1000000000 - m.nsec.toInt

/-- No sum of the conversion leaves the signed range. -/
@[mk_iff]
structure ConversionFits (m : TlTranslation) (e : Timepoint) : Prop where
  distance : Fits64 (m.distance e)
  result : Fits64 (m.last.toInt + m.distance e - m.lag (m.distance e))

instance (m : TlTranslation) (e : Timepoint) : Decidable (ConversionFits m e) :=
  decidable_of_iff' _ (conversionFits_iff m e)

variable {e : Timepoint}

/-- The core expiry: the plain distance less the rate correction of the whole quotients of the
*unsigned* distance. -/
theorem toInt_rem2loc_expiry {m : TlTranslation} (hrate : RatePositive m)
    (hfits : ConversionFits m e) :
    (rem2loc m false (tpToNsec e)).toInt
      = m.last.toInt + m.distance e - m.lag (m.distance e) := by
  have hns : (tpToNsec e).toInt = wrap64 (e.value / 1000000000) := by
    rw [toInt_tpToNsec]
    unfold Timepoint.value
    congr 1
    omega
  have hmod : ((tpToNsec e).toInt - m.nsec.toInt) % 18446744073709551616
      = m.distance e % 18446744073709551616 := by
    rw [hns]
    unfold TlTranslation.distance wrap64
    omega
  -- `lag` only sees the distance modulo `2 ^ 64`, and so does the final reduction
  have hlag : m.lag ((tpToNsec e).toInt - m.nsec.toInt) = m.lag (m.distance e) := by
    unfold TlTranslation.lag
    rw [hmod]
  have hresult := hfits.result
  rw [toInt_rem2loc hrate, hlag]
  unfold wrap64
  omega

/-! ## The two tests over the integers -/

section Mapping

variable {type : QotTimelineType} {timelineImpl clkglParams m : TlTranslation}
  (hm : mappingInForce type timelineImpl clkglParams = m) {c : Int64}

include hm

theorem expiredOnCore_iff (hrate : RatePositive m) (hfits : ConversionFits m e) :
    expiredOnCore type timelineImpl clkglParams (tpFromNsec c) e
      ↔ m.distance e - m.lag (m.distance e) < c.toInt - m.last.toInt := by
  unfold expiredOnCore
  rw [timepointCmp_pos, qotRemoteToCore_eq, tpFromNsec_rank_lt, hm,
    toInt_rem2loc_expiry hrate hfits]
  constructor <;> intro h <;> omega

theorem qotCoreToRemote_reading (hfits : Loc2remFits m c.toInt) :
    (qotCoreToRemote type timelineImpl clkglParams (tpFromNsec c)).sec.toInt
        = m.reading c.toInt / 1000000000
      ∧ (qotCoreToRemote type timelineImpl clkglParams (tpFromNsec c)).value
        = m.reading c.toInt * 1000000000 := by
  rw [qotCoreToRemote_eq, tpToNsec_tpFromNsec, tpFromNsec_sec, tpFromNsec_value, hm,
    toInt_loc2rem hfits]
  exact ⟨rfl, rfl⟩

end Mapping

/-- An expiry with a smaller value is earlier whatever its fraction; one with a larger value is
not earlier as long as its seconds do not fall behind. -/
theorem timepointCmp_pos_of_value {now : Timepoint} (hnow : now.Normalised) :
    (e.value < now.value → timepointCmp e now > 0)
      ∧ (now.value ≤ e.value → (¬ timepointCmp e now > 0 ↔ now.sec.toInt ≤ e.sec.toInt)) := by
  have he := toNat_lt e.asec
  simp only [timepointCmp_pos]
  unfold Timepoint.value Timepoint.rank
  refine ⟨fun h => by omega, fun h => ⟨fun hn => by omega, fun hs => by omega⟩⟩

/-! ## When the tests agree -/

/-- The condition, with `y` the distance of the expiry from the last discipline point and `x` the
core time elapsed since, on an expiry outside the band. In the past: if it shares the whole quotient
of the present, its rest is smaller (`quotient`), and a quotient earlier it is not larger by a
second (`previous`); before the discipline point, the correction of `2 ^ 64` nanoseconds, which a
slow clock adds, is less than the time it has been over (`before`). In the future: in the quotient
of the present its rest is not smaller (`future`), and it does not have fewer seconds than the
current time, which no normalised expiry does (`seconds`). -/
structure ExpiryConverts (m : TlTranslation) (c : Int) (e : Timepoint) : Prop where
  fits : ConversionFits m e
  quotient : 0 ≤ m.distance e → e.value ≤ (m.reading c - 2) * 1000000000 →
    m.distance e / (1000000000 + m.mult.toInt) = (c - m.last.toInt) / 1000000000 →
    m.distance e % (1000000000 + m.mult.toInt) < (c - m.last.toInt) % 1000000000
  previous : 0 ≤ m.distance e → e.value ≤ (m.reading c - 2) * 1000000000 →
    m.distance e / (1000000000 + m.mult.toInt) + 1 = (c - m.last.toInt) / 1000000000 →
    m.distance e % (1000000000 + m.mult.toInt) < 1000000000 + (c - m.last.toInt) % 1000000000
  before : m.distance e < 0 → e.value ≤ (m.reading c - 2) * 1000000000 →
    -m.mult.toInt * ((18446744073709551616 + m.distance e) / (1000000000 + m.mult.toInt))
      < c - m.last.toInt - m.distance e
  future : (m.reading c + 2) * 1000000000 ≤ e.value →
    m.distance e / (1000000000 + m.mult.toInt) = (c - m.last.toInt) / 1000000000 →
    (c - m.last.toInt) % 1000000000 ≤ m.distance e % (1000000000 + m.mult.toInt)
  seconds : (m.reading c + 2) * 1000000000 ≤ e.value → m.reading c / 1000000000 ≤ e.sec.toInt

section Sides

variable {m : TlTranslation} {c : Int} {e : Timepoint} (hmult : |m.mult.toInt| ≤ maxAdj)
  (hlater : m.last.toInt ≤ c) (hfits : ConversionFits m e)

include hfits

/-- After the discipline point the conversion is the inverse of the rate map. -/
theorem distance_sub_lag_of_nonneg (h : 0 ≤ m.distance e) :
    m.distance e - m.lag (m.distance e)
      = RateMap.inverse 1000000000 m.mult.toInt (m.distance e) := by
  have hdist := hfits.distance
  unfold TlTranslation.lag
  rw [RateMap.inverse_eq, Int.emod_eq_of_lt h (by omega)]

include hmult hlater

/-- The core-domain test on an expiry below the band, after the discipline point. -/
theorem past_iff (h : 0 ≤ m.distance e) (hpast : e.value ≤ (m.reading c - 2) * 1000000000) :
    m.distance e - m.lag (m.distance e) < c - m.last.toInt
      ↔ (m.distance e / (1000000000 + m.mult.toInt) = (c - m.last.toInt) / 1000000000 →
          m.distance e % (1000000000 + m.mult.toInt) < (c - m.last.toInt) % 1000000000)
        ∧ (m.distance e / (1000000000 + m.mult.toInt) + 1 = (c - m.last.toInt) / 1000000000 →
          m.distance e % (1000000000 + m.mult.toInt)
            < 1000000000 + (c - m.last.toInt) % 1000000000) := by
  obtain ⟨hlow, hhigh⟩ := abs_le.mp hmult
  unfold maxAdj at hlow hhigh
  rw [distance_sub_lag_of_nonneg hfits h]
  refine RateMap.inverse_lt_iff_of_lt_forward (by omega) (by omega) (by omega) (by omega) ?_
  unfold TlTranslation.reading at hpast
  unfold TlTranslation.distance
  omega

/-- On an expiry above the band. -/
theorem future_iff (hfuture : (m.reading c + 2) * 1000000000 ≤ e.value) :
    c - m.last.toInt ≤ m.distance e - m.lag (m.distance e)
      ↔ (m.distance e / (1000000000 + m.mult.toInt) = (c - m.last.toInt) / 1000000000 →
        (c - m.last.toInt) % 1000000000 ≤ m.distance e % (1000000000 + m.mult.toInt)) := by
  obtain ⟨hlow, hhigh⟩ := abs_le.mp hmult
  unfold maxAdj at hlow hhigh
  have hnonneg := RateMap.forward_nonneg (N := 1000000000) (m := m.mult.toInt) (by omega) (by omega)
    (show 0 ≤ c - m.last.toInt by omega)
  have hforward : RateMap.forward 1000000000 m.mult.toInt (c - m.last.toInt) ≤ m.distance e := by
    unfold TlTranslation.reading at hfuture
    unfold TlTranslation.distance
    omega
  rw [distance_sub_lag_of_nonneg hfits (by omega)]
  exact RateMap.le_inverse_iff_of_forward_le (by omega) (by omega) (by omega) hforward

omit hmult hlater in
/-- On an expiry before the discipline point. -/
theorem before_iff (h : m.distance e < 0) :
    m.distance e - m.lag (m.distance e) < c - m.last.toInt
      ↔ -m.mult.toInt * ((18446744073709551616 + m.distance e) / (1000000000 + m.mult.toInt))
        < c - m.last.toInt - m.distance e := by
  have hdist := hfits.distance
  have hmod : m.distance e % 18446744073709551616 = 18446744073709551616 + m.distance e := by
    omega
  unfold TlTranslation.lag
  rw [hmod, neg_mul]
  constructor <;> intro h <;> omega

end Sides

/-- **The two expiry tests agree** if the expiry converts; where the conversion stays in 64 bits,
exactly then. -/
theorem expiryTestsAgree_iff (type : QotTimelineType) (timelineImpl clkglParams : TlTranslation)
    (c : Int64) (e : Timepoint)
    (hmult : |(mappingInForce type timelineImpl clkglParams).mult.toInt| ≤ maxAdj)
    (hlater : (mappingInForce type timelineImpl clkglParams).last.toInt ≤ c.toInt)
    (hfits : Loc2remFits (mappingInForce type timelineImpl clkglParams) c.toInt) :
    (ExpiryConverts (mappingInForce type timelineImpl clkglParams) c.toInt e →
        ExpiryTestsAgree type timelineImpl clkglParams (tpFromNsec c) e)
      ∧ (ConversionFits (mappingInForce type timelineImpl clkglParams) e →
        (ExpiryTestsAgree type timelineImpl clkglParams (tpFromNsec c) e
          ↔ ExpiryConverts (mappingInForce type timelineImpl clkglParams) c.toInt e)) := by
  generalize hm : mappingInForce type timelineImpl clkglParams = m at *
  suffices hexact : ConversionFits m e →
      (ExpiryTestsAgree type timelineImpl clkglParams (tpFromNsec c) e
      ↔ ExpiryConverts m c.toInt e) from ⟨fun h => (hexact h.fits).mpr h, hexact⟩
  intro hconv
  obtain ⟨hsec, hval⟩ := qotCoreToRemote_reading hm hfits
  have hcore := expiredOnCore_iff hm (c := c) (ratePositive_of_maxAdj hmult) hconv
  have hnorm : (qotCoreToRemote type timelineImpl clkglParams (tpFromNsec c)).Normalised := by
    rw [qotCoreToRemote_eq]
    exact tpFromNsec_normalised _
  -- the timeline-domain test says what the values say, except on an expiry that is not normalised
  obtain ⟨hless, hmore⟩ := timepointCmp_pos_of_value (e := e) hnorm
  unfold ExpiryTestsAgree
  rw [hcore]
  rw [hval] at hless hmore ⊢
  rw [hsec] at hmore
  constructor
  · rintro ⟨hearly, hlate⟩
    refine ⟨hconv, fun h hp => ?_, fun h hp => ?_, fun h hp => ?_, fun hp => ?_, fun hp => ?_⟩
    · exact ((past_iff hmult hlater hconv h hp).mp (hearly (by omega)).2).1
    · exact ((past_iff hmult hlater hconv h hp).mp (hearly (by omega)).2).2
    · exact (before_iff hconv h).mp (hearly (by omega)).2
    · exact (future_iff hmult hlater hconv hp).mp (not_lt.mp (hlate (by omega)).2)
    · exact (hmore (by omega)).mp (hlate (by omega)).1
  · intro h
    refine ⟨fun hp => ⟨hless (by omega), ?_⟩, fun hp => ⟨?_, ?_⟩⟩
    · rcases lt_or_ge (m.distance e) 0 with hneg | hpos
      · exact (before_iff hconv hneg).mpr (h.before hneg (by omega))
      · exact (past_iff hmult hlater hconv hpos (by omega)).mpr
          ⟨h.quotient hpos (by omega), h.previous hpos (by omega)⟩
    · exact (hmore (by omega)).mpr (h.seconds (by omega))
    · exact not_lt.mpr ((future_iff hmult hlater hconv (by omega)).mpr (h.future (by omega)))

theorem fastTranslation_fits : Loc2remFits fastTranslation 10500000000 :=
  ⟨by decide, by decide, by decide, by decide⟩

/-- Ten seconds and a half after the last discipline of a fast clock, an expiry at 10.4 s has passed
and one at 10.6 s has not, by both tests. -/
theorem expiryTestsAgree_iff_fast :
    (expiredOnTimeline .qotTimelineLocal fastTranslation initTranslation
          (tpFromNsec 10500000000) ⟨10, 400000000000000000⟩
        ∧ expiredOnCore .qotTimelineLocal fastTranslation initTranslation
          (tpFromNsec 10500000000) ⟨10, 400000000000000000⟩)
      ∧ (¬ expiredOnTimeline .qotTimelineLocal fastTranslation initTranslation
          (tpFromNsec 10500000000) ⟨10, 600000000000000000⟩
        ∧ ¬ expiredOnCore .qotTimelineLocal fastTranslation initTranslation
          (tpFromNsec 10500000000) ⟨10, 600000000000000000⟩) := by
  constructor
  · refine ((expiryTestsAgree_iff .qotTimelineLocal fastTranslation initTranslation 10500000000
      ⟨10, 400000000000000000⟩ (by decide) (by decide) fastTranslation_fits).1 ?_).1 (by decide)
    exact ⟨by decide, fun _ _ _ => by decide, fun _ _ h => absurd h (by decide),
      fun h => absurd h (by decide), fun h => absurd h (by decide), fun h => absurd h (by decide)⟩
  · refine ((expiryTestsAgree_iff .qotTimelineLocal fastTranslation initTranslation 10500000000
      ⟨10, 600000000000000000⟩ (by decide) (by decide) fastTranslation_fits).1 ?_).2 (by decide)
    exact ⟨by decide, fun _ h => absurd h (by decide), fun _ h => absurd h (by decide),
      fun h => absurd h (by decide), fun _ _ => by decide, fun _ => by decide⟩

def slowTranslation : TlTranslation := { initTranslation with mult := -1, nsec := 1000000000 }

/-- **The tests disagree.** Ten seconds after a clock was set to one second, an expiry at timeline
zero has passed; the unsigned conversion puts it eight seconds ahead, since it takes the rate
correction of almost `2 ^ 64` nanoseconds off. The global clock does the same, and so does a fast
clock on an expiry a millisecond ago. -/
theorem expiryTests_disagree :
    expiredOnTimeline .qotTimelineLocal slowTranslation initTranslation
        (tpFromNsec 10000000000) ⟨0, 0⟩
      ∧ ¬ expiredOnCore .qotTimelineLocal slowTranslation initTranslation
        (tpFromNsec 10000000000) ⟨0, 0⟩
      ∧ ¬ ExpiryTestsAgree .qotTimelineLocal slowTranslation initTranslation
        (tpFromNsec 10000000000) ⟨0, 0⟩
      ∧ ¬ ExpiryTestsAgree .qotTimelineGlobal initTranslation slowTranslation
        (tpFromNsec 10000000000) ⟨0, 0⟩
      ∧ ¬ ExpiryTestsAgree .qotTimelineLocal fastTranslation initTranslation
        (tpFromNsec 999999999) (tpFromNsec 1000500000) := by
  refine ⟨by decide, by decide, ?_, ?_, ?_⟩ <;>
    exact fun h => absurd (h.1 (by decide)).2 (by decide)

end Qot
