import Mathlib.Data.List.MinMax
import QotStack.Clock.Projection
import QotStack.Scheduler.Kernel

/-!
# QotStack — the next event (`qot_get_next_event`)

The scheduler programs its interrupt for the earliest core expiry of all sleepers. It converts one
expiry per timeline, that of the first active sleeper of the tree, and takes the earliest of these
and of `MAX_TIMEPOINT_SEC`. That is the earliest of all only if conversion keeps the order of the
tree. The inverse projection does not: it leaves the rest of its division unscaled, so on a fast
timeline a sleeper just before a whole number of rate periods is converted to a later core time than
one just after (`Overtakes`, `RateMap.inverse_lt_iff_of_le`).

`next_event_earliest_iff` says when the result is right nevertheless; on a timeline that is not fast
no sleeper overtakes the first (`not_overtakes_of_slow`).
-/

namespace Qot

open MachineInt

section Definitions

variable (clkglParams : TlTranslation) (timelines : List Timeline)

def Timeline.mapping (tl : Timeline) : TlTranslation := mappingInForce tl.type tl.impl clkglParams

/-- The core expiries of all active sleepers of all timelines. -/
def coreExpiries : List Timepoint :=
  timelines.flatMap fun tl =>
    (tl.events.filter (·.sleeperActive)).map fun t => tl.core clkglParams t.qotExpires

/-- `e` is a core expiry, and none is earlier. -/
def IsEarliest (e : Timepoint) : Prop :=
  e ∈ coreExpiries clkglParams timelines
    ∧ ∀ e' ∈ coreExpiries clkglParams timelines, ¬ timepointCmp e' e > 0

/-- What `qot_get_next_event` is for. -/
structure NextEventRight : Prop where
  none : coreExpiries clkglParams timelines = [] →
    qotGetNextEvent clkglParams timelines = maxTimepoint
  earliest : ∀ e, IsEarliest clkglParams timelines e →
    qotGetNextEvent clkglParams timelines = clampSec e

/-- The expiry is a whole number of nanoseconds not before `nsec`, and converts without overflow. -/
structure Convertible (m : TlTranslation) (e : Timepoint) : Prop where
  whole : e.value % 1000000000 = 0
  later : 0 ≤ m.distance e
  fits : Fits64 (e.value / 1000000000)
  back : Rem2locFits m (e.value / 1000000000)

/-- The mapping states and event trees considered. -/
structure ConvertibleTrees : Prop where
  rate : ∀ tl ∈ timelines, |(tl.mapping clkglParams).mult.toInt| ≤ maxAdj
  expiries : ∀ tl ∈ timelines, ∀ t ∈ tl.events, Convertible (tl.mapping clkglParams) t.qotExpires

/-- The inverse projection puts the expiry `e` before `e'`. -/
def Overtakes (m : TlTranslation) (e e' : Timepoint) : Prop :=
  RateMap.inverse 1000000000 m.mult.toInt (m.distance e)
    < RateMap.inverse 1000000000 m.mult.toInt (m.distance e')

/-- A sleeper that overtakes the first active one of its tree makes no difference, since it is not
before the maximum or some tree starts with a sleeper that is no later; and some sleeper is not
after the maximum, unless there is none at all. -/
structure FirstsLead : Prop where
  lead : ∀ tl ∈ timelines, ∀ f, tl.firstActive = some f → ∀ t ∈ tl.events, t.sleeperActive = true →
    Overtakes (tl.mapping clkglParams) t.qotExpires f.qotExpires →
      ¬ timepointCmp (tl.core clkglParams t.qotExpires) maxTimepoint > 0
        ∨ ∃ tl' ∈ timelines, ∃ f', tl'.firstActive = some f'
          ∧ ¬ timepointCmp (tl.core clkglParams t.qotExpires)
            (tl'.core clkglParams f'.qotExpires) > 0
  reach : coreExpiries clkglParams timelines = []
    ∨ ∃ e ∈ coreExpiries clkglParams timelines, ¬ timepointCmp maxTimepoint e > 0

/-- The earliest of the first sleepers is in second zero or before, and is as far into its second as
the earliest of all: without the seconds they are the same. -/
def HiddenByClamp : Prop :=
  ∃ tl ∈ timelines, ∃ f, tl.firstActive = some f
    ∧ (∀ tl' ∈ timelines, ∀ f', tl'.firstActive = some f' →
      ¬ timepointCmp (tl'.core clkglParams f'.qotExpires) (tl.core clkglParams f.qotExpires) > 0)
    ∧ (tl.core clkglParams f.qotExpires).sec.toInt ≤ 0
    ∧ ∃ e, IsEarliest clkglParams timelines e ∧ e.asec = (tl.core clkglParams f.qotExpires).asec

end Definitions

/-! ## Conversion -/

theorem coreNs_eq_rem2loc (tl : Timeline) (clkglParams : TlTranslation) (e : Timepoint) :
    tl.coreNs clkglParams e = rem2loc (tl.mapping clkglParams) false (tpToNsec e) := by
  rw [Timeline.coreNs, Timeline.core, qotRemoteToCore_eq, tpToNsec_tpFromNsec]
  rfl

/-- A convertible expiry is converted by the inverse rate map. -/
theorem toInt_rem2loc_convertible {m : TlTranslation} (hrate : |m.mult.toInt| ≤ maxAdj)
    {e : Timepoint} (h : Convertible m e) :
    (rem2loc m false (tpToNsec e)).toInt
      = m.last.toInt + RateMap.inverse 1000000000 m.mult.toInt (m.distance e) := by
  have hns : (tpToNsec e).toInt = e.value / 1000000000 := by
    rw [toInt_tpToNsec, ← wrap64_of_fits h.fits]
    congr 1
    unfold Timepoint.value
    omega
  have hback := h.back.result
  have hdiff := h.back.diff
  have hlater := h.later
  unfold TlTranslation.distance at hlater ⊢
  rw [toInt_rem2loc (ratePositive_of_maxAdj hrate), hns, RateMap.inverse_eq] at *
  unfold TlTranslation.lag
  rw [Int.emod_eq_of_lt hlater (by omega)]
  rw [wrap64_of_fits (by rwa [add_sub_assoc]), add_sub_assoc]

section Earliest

variable {clkglParams : TlTranslation} {timelines : List Timeline} {tl : Timeline}
  {f : TimelineSleeper} {e : Timepoint}

theorem overtakes_iff (h : ConvertibleTrees clkglParams timelines) (htl : tl ∈ timelines)
    {t : TimelineSleeper} (ht : t ∈ tl.events) (hf : f ∈ tl.events) :
    Overtakes (tl.mapping clkglParams) t.qotExpires f.qotExpires
      ↔ (tl.coreNs clkglParams t.qotExpires).toInt
        < (tl.coreNs clkglParams f.qotExpires).toInt := by
  rw [coreNs_eq_rem2loc, coreNs_eq_rem2loc,
    toInt_rem2loc_convertible (h.rate tl htl) (h.expiries tl htl t ht),
    toInt_rem2loc_convertible (h.rate tl htl) (h.expiries tl htl f hf)]
  unfold Overtakes
  omega

theorem mem_coreExpiries :
    e ∈ coreExpiries clkglParams timelines
      ↔ ∃ tl ∈ timelines, ∃ t ∈ tl.events, t.sleeperActive = true
        ∧ e = tl.core clkglParams t.qotExpires := by
  unfold coreExpiries
  simp only [List.mem_flatMap, List.mem_map, List.mem_filter]
  constructor
  · rintro ⟨tl, htl, t, ⟨ht, hactive⟩, rfl⟩
    exact ⟨tl, htl, t, ht, hactive, rfl⟩
  · rintro ⟨tl, htl, t, ht, hactive, rfl⟩
    exact ⟨tl, htl, t, ⟨ht, hactive⟩, rfl⟩

/-! ## When the result is the earliest -/

/-- The active sleepers in nanoseconds: none is before `x`. -/
def NoneBefore (clkglParams : TlTranslation) (timelines : List Timeline) (x : Int64) : Prop :=
  ∀ tl ∈ timelines, ∀ t ∈ tl.events, t.sleeperActive = true →
    x.toInt ≤ (tl.coreNs clkglParams t.qotExpires).toInt

theorem isEarliest_iff :
    IsEarliest clkglParams timelines e
      ↔ ∃ tl ∈ timelines, ∃ t ∈ tl.events, t.sleeperActive = true
        ∧ e = tpFromNsec (tl.coreNs clkglParams t.qotExpires)
        ∧ NoneBefore clkglParams timelines (tl.coreNs clkglParams t.qotExpires) := by
  unfold IsEarliest NoneBefore
  simp only [mem_coreExpiries, Timeline.core_eq]
  constructor
  · rintro ⟨⟨tl, htl, t, ht, hactive, rfl⟩, hnone⟩
    refine ⟨tl, htl, t, ht, hactive, rfl, fun tl' htl' t' ht' hactive' => ?_⟩
    have := hnone _ ⟨tl', htl', t', ht', hactive', rfl⟩
    rw [timepointCmp_tpFromNsec] at this
    exact not_lt.mp this
  · rintro ⟨tl, htl, t, ht, hactive, rfl, hnone⟩
    refine ⟨⟨tl, htl, t, ht, hactive, rfl⟩, ?_⟩
    rintro _ ⟨tl', htl', t', ht', hactive', rfl⟩
    rw [timepointCmp_tpFromNsec]
    exact not_lt.mpr (hnone tl' htl' t' ht' hactive')

/-- Among finitely many sleepers one is the earliest. -/
theorem exists_isEarliest (h : coreExpiries clkglParams timelines ≠ []) :
    ∃ e, IsEarliest clkglParams timelines e := by
  cases hmin : (coreExpiries clkglParams timelines).argmin Timepoint.rank with
  | none => exact absurd (List.argmin_eq_none.mp hmin) h
  | some e =>
    refine ⟨e, List.argmin_mem hmin, fun e' he' => ?_⟩
    rw [timepointCmp_pos]
    exact not_lt.mpr (List.le_of_mem_argmin he' hmin)

/-- No active sleeper is before the earliest candidate. -/
theorem candidate_le (h : ConvertibleTrees clkglParams timelines)
    (hlead : FirstsLead clkglParams timelines) {n : Int64}
    (hle : ∀ m, Candidate clkglParams timelines maxNs m → n.toInt ≤ m.toInt) :
    NoneBefore clkglParams timelines n := by
  intro tl htl t ht hactive
  obtain ⟨f, hf⟩ := exists_firstActive ht hactive
  by_cases hover : Overtakes (tl.mapping clkglParams) t.qotExpires f.qotExpires
  · rcases hlead.lead tl htl f hf t ht hactive hover with hmax | ⟨tl', htl', f', hf', hlater⟩
    · rw [Timeline.core_eq, maxTimepoint_eq, timepointCmp_tpFromNsec] at hmax
      exact (hle maxNs (Or.inl rfl)).trans (not_lt.mp hmax)
    · rw [Timeline.core_eq, Timeline.core_eq, timepointCmp_tpFromNsec] at hlater
      exact (hle _ (Or.inr ⟨tl', htl', f', hf', rfl⟩)).trans (not_lt.mp hlater)
  · rw [overtakes_iff h htl ht (firstActive_mem hf).1] at hover
    exact (hle _ (Or.inr ⟨tl, htl, f, hf, rfl⟩)).trans (not_lt.mp hover)

theorem nextEventRight_of_firstsLead (h : ConvertibleTrees clkglParams timelines)
    (hlead : FirstsLead clkglParams timelines) : NextEventRight clkglParams timelines := by
  obtain ⟨n, hn, hcand, hle⟩ := qotGetNextEvent_candidate clkglParams timelines
  refine ⟨fun hnone => ?_, fun e he => ?_⟩
  · -- without active sleepers only the maximum is a candidate
    rcases hcand with rfl | ⟨tl, htl, f, hf, rfl⟩
    · rw [hn, ← maxTimepoint_eq]
      rfl
    · have hmem : tl.core clkglParams f.qotExpires ∈ coreExpiries clkglParams timelines :=
        mem_coreExpiries.mpr ⟨tl, htl, f, (firstActive_mem hf).1, (firstActive_mem hf).2, rfl⟩
      rw [hnone] at hmem
      cases hmem
  · obtain ⟨tl, htl, t, ht, hactive, rfl, hnone⟩ := isEarliest_iff.mp he
    have hupper := candidate_le h hlead hle tl htl t ht hactive
    have hlower : (tl.coreNs clkglParams t.qotExpires).toInt ≤ n.toInt := by
      rcases hcand with rfl | ⟨tl', htl', f, hf, rfl⟩
      · rcases hlead.reach with hempty | ⟨e, he', hmax⟩
        · have hmem := he.1
          rw [hempty] at hmem
          cases hmem
        · obtain ⟨tl', htl', t', ht', hactive', rfl⟩ := mem_coreExpiries.mp he'
          rw [Timeline.core_eq, maxTimepoint_eq, timepointCmp_tpFromNsec] at hmax
          exact (hnone tl' htl' t' ht' hactive').trans (not_lt.mp hmax)
      · exact hnone tl' htl' f (firstActive_mem hf).1 (firstActive_mem hf).2
    rw [hn, Int64.toInt_inj.mp (le_antisymm hupper hlower)]

theorem clampSec_of_nonpos (h : e.sec.toInt ≤ 0) : clampSec e = ⟨0, e.asec⟩ := by
  unfold clampSec
  split
  · rfl
  · next hneg =>
    rw [Int64.lt_iff_toInt_lt, Int64.toInt_zero] at hneg
    have hzero : e.sec = 0 := Int64.toInt_inj.mp (show e.sec.toInt = 0 by omega)
    rw [← hzero]

theorem clampSec_of_nonneg (h : 0 ≤ e.sec.toInt) : clampSec e = e := by
  rw [clampSec, if_neg]
  rw [Int64.lt_iff_toInt_lt, Int64.toInt_zero]
  omega

/-- The clamp takes for the same only what differs by seconds up to second zero. -/
theorem clampSec_eq_cases {e' : Timepoint} (h : clampSec e = clampSec e') :
    e = e' ∨ (e.sec.toInt ≤ 0 ∧ e'.sec.toInt ≤ 0 ∧ e.asec = e'.asec) := by
  have h0 : (0 : Int64).toInt = 0 := rfl
  rcases le_or_gt e.sec.toInt 0 with he | he
  · rw [clampSec_of_nonpos he] at h
    rcases le_or_gt e'.sec.toInt 0 with he' | he'
    · rw [clampSec_of_nonpos he'] at h
      exact Or.inr ⟨he, he', (Timepoint.mk.inj h).2⟩
    · rw [clampSec_of_nonneg he'.le] at h
      rw [← h] at he'
      exact absurd he' (by rw [h0]; omega)
  · rw [clampSec_of_nonneg he.le] at h
    rcases le_or_gt e'.sec.toInt 0 with he' | he'
    · rw [clampSec_of_nonpos he'] at h
      rw [h] at he
      exact absurd he (by rw [h0]; omega)
    · rw [clampSec_of_nonneg he'.le] at h
      exact Or.inl h

/-- If the earliest sleeper is a candidate, the first ones make up for the others. -/
theorem firstsLead_of_candidate {tl₀ : Timeline} {t₀ : TimelineSleeper}
    (he : IsEarliest clkglParams timelines (tpFromNsec (tl₀.coreNs clkglParams t₀.qotExpires)))
    (hnone : NoneBefore clkglParams timelines (tl₀.coreNs clkglParams t₀.qotExpires))
    (hcand : Candidate clkglParams timelines maxNs (tl₀.coreNs clkglParams t₀.qotExpires))
    (hle : ∀ m, Candidate clkglParams timelines maxNs m →
      (tl₀.coreNs clkglParams t₀.qotExpires).toInt ≤ m.toInt) :
    FirstsLead clkglParams timelines := by
  refine ⟨fun tl htl f hf t ht hactive _ => ?_, Or.inr ⟨_, he.1, ?_⟩⟩
  · have hafter := hnone tl htl t ht hactive
    rcases hcand with hmax | ⟨tl', htl', f', hf', hfirst⟩
    · refine Or.inl ?_
      rw [Timeline.core_eq, maxTimepoint_eq, timepointCmp_tpFromNsec, ← hmax]
      exact not_lt.mpr hafter
    · refine Or.inr ⟨tl', htl', f', hf', ?_⟩
      rw [Timeline.core_eq, Timeline.core_eq, timepointCmp_tpFromNsec, ← hfirst]
      exact not_lt.mpr hafter
  · rw [maxTimepoint_eq, timepointCmp_tpFromNsec]
    exact not_lt.mpr (hle maxNs (Or.inl rfl))

theorem firstsLead_or_hidden (hright : NextEventRight clkglParams timelines) :
    FirstsLead clkglParams timelines ∨ HiddenByClamp clkglParams timelines := by
  by_cases hempty : coreExpiries clkglParams timelines = []
  · refine Or.inl ⟨fun tl htl f hf t ht hactive _ => ?_, Or.inl hempty⟩
    have hmem : tl.core clkglParams t.qotExpires ∈ coreExpiries clkglParams timelines :=
      mem_coreExpiries.mpr ⟨tl, htl, t, ht, hactive, rfl⟩
    rw [hempty] at hmem
    cases hmem
  obtain ⟨e, he⟩ := exists_isEarliest hempty
  obtain ⟨n, hn, hcand, hle⟩ := qotGetNextEvent_candidate clkglParams timelines
  have hclamp := hright.earliest e he
  rw [hn] at hclamp
  rcases clampSec_eq_cases hclamp with heq | ⟨hsec, _, hasec⟩
  · -- the candidate the loop ends with is the earliest sleeper itself
    obtain ⟨tl₀, htl₀, t₀, ht₀, hactive₀, rfl, hnone⟩ := isEarliest_iff.mp he
    have hns : n = tl₀.coreNs clkglParams t₀.qotExpires := by
      rw [← tpToNsec_tpFromNsec n, heq, tpToNsec_tpFromNsec]
    rw [hns] at hcand hle
    exact Or.inl (firstsLead_of_candidate he hnone hcand hle)
  · rcases hcand with rfl | ⟨tl, htl, f, hf, rfl⟩
    · exact absurd hsec (by decide)
    · refine Or.inr ⟨tl, htl, f, hf, fun tl' htl' f' hf' => ?_, ?_, e, he, ?_⟩
      · rw [Timeline.core_eq, Timeline.core_eq, timepointCmp_tpFromNsec]
        exact not_lt.mpr (hle _ (Or.inr ⟨tl', htl', f', hf', rfl⟩))
      · rwa [Timeline.core_eq]
      · rw [Timeline.core_eq]
        exact hasec.symm

theorem nextEventRight_of_hidden (h : HiddenByClamp clkglParams timelines) :
    NextEventRight clkglParams timelines := by
  obtain ⟨tl, htl, f, hf, hfirst, hsec, e, he, hasec⟩ := h
  obtain ⟨n, hn, hcand, hle⟩ := qotGetNextEvent_candidate clkglParams timelines
  rw [Timeline.core_eq] at hsec hasec
  have hmem := firstActive_mem hf
  have hn_le := hle _ (Or.inr ⟨tl, htl, f, hf, rfl⟩)
  have hns : n = tl.coreNs clkglParams f.qotExpires := by
    apply Int64.toInt_inj.mp
    apply le_antisymm hn_le
    rcases hcand with rfl | ⟨tl', htl', f', hf', rfl⟩
    · -- the maximum is after second zero
      rw [tpFromNsec_sec] at hsec
      have hmax : maxNs.toInt ≥ 1000000000 := by decide
      omega
    · have := hfirst tl' htl' f' hf'
      rw [Timeline.core_eq, Timeline.core_eq, timepointCmp_tpFromNsec] at this
      exact not_lt.mp this
  have hearliest : ∀ e', IsEarliest clkglParams timelines e' → clampSec e' = ⟨0, e'.asec⟩ := by
    intro e' he'
    obtain ⟨tl', htl', t', ht', hactive', rfl, hnone⟩ := isEarliest_iff.mp he'
    have hbefore := hnone tl htl f hmem.1 hmem.2
    apply clampSec_of_nonpos
    rw [tpFromNsec_sec] at hsec ⊢
    omega
  refine ⟨fun hempty => ?_, fun e' he' => ?_⟩
  · have hin := he.1
    rw [hempty] at hin
    cases hin
  · rw [hn, hns, clampSec_of_nonpos hsec, hearliest e' he', ← hasec]
    obtain ⟨tl₁, htl₁, t₁, ht₁, hactive₁, rfl, hnone₁⟩ := isEarliest_iff.mp he
    obtain ⟨tl₂, htl₂, t₂, ht₂, hactive₂, rfl, hnone₂⟩ := isEarliest_iff.mp he'
    have hsame := le_antisymm (hnone₁ tl₂ htl₂ t₂ ht₂ hactive₂) (hnone₂ tl₁ htl₁ t₁ ht₁ hactive₁)
    rw [Int64.toInt_inj.mp hsame]

end Earliest

/-- On a timeline that is not fast, with normalised expiries, no sleeper overtakes the first. -/
theorem not_overtakes_of_slow {m : TlTranslation} {tl : Timeline} {f t : TimelineSleeper}
    (hrate : |m.mult.toInt| ≤ maxAdj) (hslow : m.mult.toInt ≤ 1) (hsorted : EventsSorted tl.events)
    (hnorm : ∀ t ∈ tl.events, t.qotExpires.Normalised) (hf : tl.firstActive = some f)
    (ht : t ∈ tl.events) (hactive : t.sleeperActive = true) :
    ¬ Overtakes m t.qotExpires f.qotExpires := by
  -- the tree is in order of the values, and the slow inverse keeps that order
  have hrank := firstActive_rank_le hsorted hf ht hactive
  have hvalue : f.qotExpires.value ≤ t.qotExpires.value := by
    rw [← not_lt, ← Timepoint.rank_lt_iff_value_lt (hnorm t ht) (hnorm f (firstActive_mem hf).1)]
    exact not_lt.mpr hrank
  obtain ⟨hlow, hhigh⟩ := abs_le.mp hrate
  unfold maxAdj at hlow hhigh
  rw [Overtakes, not_lt]
  apply RateMap.inverse_mono (by omega) (by omega) hslow
  unfold TlTranslation.distance
  omega

/-- **The next event is the earliest one** exactly if the sleepers that lead their trees make up for
every sleeper that overtakes one, or the clamp hides that they do not. -/
theorem next_event_earliest_iff (clkglParams : TlTranslation) (timelines : List Timeline)
    (h : ConvertibleTrees clkglParams timelines) :
    NextEventRight clkglParams timelines
      ↔ FirstsLead clkglParams timelines ∨ HiddenByClamp clkglParams timelines := by
  refine ⟨firstsLead_or_hidden, fun hcond => ?_⟩
  rcases hcond with hlead | hhidden
  · exact nextEventRight_of_firstsLead h hlead
  · exact nextEventRight_of_hidden hhidden

/-- A timeline that is as fast as the discipline allows, with blocked tasks at these nanoseconds. -/
def fastTimeline (expiries : List Int64) : Timeline where
  type := .qotTimelineLocal
  impl := ⟨0, 1000000, 0, 0, 0, 0, 0⟩
  events := expiries.zipIdx.map fun e => qotInitSleeper e.2 1 (tpFromNsec e.1)

/-- The last nanosecond of a rate period. -/
def lastOfPeriod : Int64 := 1000999999

theorem fastTimeline_convertible {e : Int64} (h : e = lastOfPeriod ∨ e = lastOfPeriod + 1) :
    Convertible ((fastTimeline []).mapping initTranslation) (tpFromNsec e) := by
  rcases h with rfl | rfl
  · exact ⟨by decide, by decide, by decide, by decide, by decide⟩
  · exact ⟨by decide, by decide, by decide, by decide, by decide⟩

/-- Two blocked tasks, the second a nanosecond after the first, each on a timeline of its own. -/
def apartTimelines : List Timeline := [fastTimeline [lastOfPeriod], fastTimeline [lastOfPeriod + 1]]

theorem mem_apartTimelines {tl : Timeline} (h : tl ∈ apartTimelines) :
    ∃ e, (e = lastOfPeriod ∨ e = lastOfPeriod + 1) ∧ tl = fastTimeline [e] := by
  rcases List.mem_cons.mp h with rfl | h
  · exact ⟨_, Or.inl rfl, rfl⟩
  · exact ⟨_, Or.inr rfl, List.mem_singleton.mp h⟩

theorem apartTimelines_convertible : ConvertibleTrees initTranslation apartTimelines where
  rate := by decide
  expiries tl htl t ht := by
    obtain ⟨e, he, rfl⟩ := mem_apartTimelines htl
    obtain rfl := List.mem_singleton.mp ht
    exact fastTimeline_convertible he

/-- The second task is converted to a core time before the first, and the interrupt is asked for by
that: it leads its tree. -/
theorem next_event_earliest_iff_apart :
    coreExpiries initTranslation apartTimelines = [⟨1, 999999000000000⟩, ⟨1, 0⟩]
      ∧ qotGetNextEvent initTranslation apartTimelines = ⟨1, 0⟩ := by
  have hlead : FirstsLead initTranslation apartTimelines := by
    refine ⟨fun tl htl f hf t ht _ hover => ?_, Or.inr ⟨⟨1, 0⟩, by decide, by decide⟩⟩
    obtain ⟨e, -, rfl⟩ := mem_apartTimelines htl
    -- a sleeper alone in its tree does not overtake itself
    obtain rfl := List.mem_singleton.mp ht
    obtain rfl := List.mem_singleton.mp (firstActive_mem hf).1
    exact absurd hover (lt_irrefl _)
  have hright := (next_event_earliest_iff _ _ apartTimelines_convertible).mpr (Or.inl hlead)
  have hearliest : IsEarliest initTranslation apartTimelines ⟨1, 0⟩ := by
    unfold IsEarliest
    decide
  refine ⟨by decide, ?_⟩
  rw [hright.earliest _ hearliest]
  decide

/-- The two tasks on one timeline. The first is converted to a core time
almost a millisecond after the second, and the interrupt is asked for by that. -/
theorem next_event_not_earliest :
    ConvertibleTrees initTranslation [fastTimeline [lastOfPeriod, lastOfPeriod + 1]]
      ∧ IsEarliest initTranslation [fastTimeline [lastOfPeriod, lastOfPeriod + 1]] ⟨1, 0⟩
      ∧ qotGetNextEvent initTranslation [fastTimeline [lastOfPeriod, lastOfPeriod + 1]]
        = ⟨1, 999999000000000⟩
      ∧ ¬ NextEventRight initTranslation [fastTimeline [lastOfPeriod, lastOfPeriod + 1]] := by
  have hearliest : IsEarliest initTranslation [fastTimeline [lastOfPeriod, lastOfPeriod + 1]]
      ⟨1, 0⟩ := by
    unfold IsEarliest
    decide
  have hresult : qotGetNextEvent initTranslation [fastTimeline [lastOfPeriod, lastOfPeriod + 1]]
      = ⟨1, 999999000000000⟩ := by decide
  refine ⟨⟨?_, ?_⟩, hearliest, hresult, fun hright => ?_⟩
  · simp only [List.mem_singleton, forall_eq]
    decide
  · intro tl htl t ht
    obtain rfl := List.mem_singleton.mp htl
    rcases List.mem_cons.mp ht with rfl | ht
    · exact fastTimeline_convertible (Or.inl rfl)
    · obtain rfl := List.mem_singleton.mp ht
      exact fastTimeline_convertible (Or.inr rfl)
  · have := hright.earliest _ hearliest
    rw [hresult] at this
    exact absurd this (by decide)

/-! ## Timelines that are not fast -/

/-- **Where no timeline is faster than the core clock, the next event is the earliest one**, as long
as the event trees are in order and hold normalised expiries, and not only such that are after the
maximum. -/
theorem next_event_earliest_of_slow (clkglParams : TlTranslation) (timelines : List Timeline)
    (h : ConvertibleTrees clkglParams timelines)
    (hslow : ∀ tl ∈ timelines, (tl.mapping clkglParams).mult.toInt ≤ 1)
    (hsorted : ∀ tl ∈ timelines, EventsSorted tl.events)
    (hnorm : ∀ tl ∈ timelines, ∀ t ∈ tl.events, t.qotExpires.Normalised)
    (hreach : coreExpiries clkglParams timelines = []
      ∨ ∃ e ∈ coreExpiries clkglParams timelines, ¬ timepointCmp maxTimepoint e > 0) :
    NextEventRight clkglParams timelines :=
  nextEventRight_of_firstsLead h
    ⟨fun tl htl _ hf _ ht hactive hover =>
      absurd hover (not_overtakes_of_slow (h.rate tl htl) (hslow tl htl) (hsorted tl htl)
        (hnorm tl htl) hf ht hactive), hreach⟩

def steadyTimeline : Timeline :=
  { fastTimeline [lastOfPeriod, lastOfPeriod + 1] with impl := initTranslation }

theorem next_event_earliest_of_slow_steady : NextEventRight initTranslation [steadyTimeline] := by
  refine next_event_earliest_of_slow _ _ ⟨?_, ?_⟩ ?_ ?_ ?_
    (Or.inr ⟨tpFromNsec lastOfPeriod, ?_, ?_⟩)
  · simp only [List.mem_singleton, forall_eq]
    decide
  · simp only [List.mem_singleton, forall_eq]
    intro t ht
    rcases List.mem_cons.mp ht with rfl | ht
    · exact ⟨by decide, by decide, by decide, by decide, by decide⟩
    · obtain rfl := List.mem_singleton.mp ht
      exact ⟨by decide, by decide, by decide, by decide, by decide⟩
  · decide
  · simp only [List.mem_singleton, forall_eq, EventsSorted]
    decide
  · decide
  · decide
  · decide

end Qot
