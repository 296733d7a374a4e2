import QotStack.Clock.Mapping
import Mathlib.Algebra.Order.Group.Unbundled.Abs

/-!
# QotStack — how far the two projections are inverse

`rem2loc` is meant to undo `loc2rem`. It divides the distance from `nsec` by the rate and adds the
remainder without scaling it back, so the round trip is off by the rate correction of the part of
the elapsed time that does not fill a whole second. `roundTrip_iff` turns that into the exact
condition for an error of at most one nanosecond; `qot_projection_round_trip_iff` carries it to
the machine code of all four functions.

The forward projection multiplies by the rate before it divides. `exactAt_iff` says that nothing
else can go wrong in it: however long ago the last discipline was, the reading is exact as long as
that product fits.
-/

namespace Qot

open MachineInt

/-- The rate bound a registration sets (`max_adj`). -/
def maxAdj : Int := 1000000

/-- The rate correction of the incomplete second of `x` stays below two nanoseconds, or a slow
clock is one nanosecond short of the full second. -/
abbrev RestNegligible (mult x : Int) : Prop :=
  |mult| * (x % 1000000000) < 2000000000 ∨ (mult < 0 ∧ x % 1000000000 = 999999999)

/-! ## The round trip over the integers -/

theorem forward_rest_full_iff {k b : Int} (hk : 0 < k) (hmax : k ≤ maxAdj) (hb : 0 ≤ b)
    (hlt : b < 1000000000) :
    RateMap.forward 1000000000 (-k) b = 1000000000 + -k ↔ b = 999999999 := by
  unfold maxAdj at hmax
  have htr : (-k * b).tdiv 1000000000 = -(k * b / 1000000000) := by
    rw [RateMap.tdiv_of_nonpos (by nlinarith)]
    congr 2
    ring
  unfold RateMap.forward
  rw [htr]
  constructor
  · intro hfull
    -- `(N - k) * (N - b) < N` leaves room for a gap of one only
    have hupper := Int.lt_ediv_add_one_mul_self (k * b) (show (0 : Int) < 1000000000 by omega)
    have hquot : k * b / 1000000000 = b - 1000000000 + k := by omega
    rw [hquot] at hupper
    have hgap : (1000000000 - k) * (1000000000 - b) < 1000000000 := by nlinarith
    by_contra hne
    have htwo : 2 ≤ 1000000000 - b := by omega
    nlinarith
  · rintro rfl
    omega

/-- **The round trip is within one nanosecond exactly when the rest is negligible.** -/
theorem roundTrip_iff {mult x : Int} (hmult : |mult| ≤ maxAdj) (hx : 0 ≤ x) :
    |RateMap.inverse 1000000000 mult (RateMap.forward 1000000000 mult x) - x| ≤ 1
      ↔ RestNegligible mult x := by
  have hmax : |mult| ≤ 1000000 := hmult
  obtain ⟨hlow, hhigh⟩ := abs_le.mp hmax
  have hN : (0 : Int) < 1000000000 := by omega
  -- whole seconds `a`, rest `b`
  obtain ⟨a, b, ha, hb, hlt, rfl⟩ : ∃ a b : Int, 0 ≤ a ∧ 0 ≤ b ∧ b < 1000000000 ∧
      x = 1000000000 * a + b :=
    ⟨x / 1000000000, x % 1000000000, by omega, by omega, by omega, by omega⟩
  have hrest : (1000000000 * a + b) % 1000000000 = b := by omega
  unfold RestNegligible
  rw [hrest, abs_le]
  rcases lt_or_ge mult 0 with hneg | hpos
  · rw [RateMap.inverse_forward_of_neg hN (by omega) hneg.le ha hb hlt, abs_of_neg hneg]
    have hiff := forward_rest_full_iff (k := -mult) (by omega) (by unfold maxAdj; omega) hb hlt
    rw [neg_neg] at hiff
    have hp : 0 ≤ -mult * b := mul_nonneg (by omega) hb
    generalize -mult * b = p at hp ⊢
    split
    case isTrue hfull =>
      -- the rest rounds up to a whole divisor, and the round trip is one nanosecond off
      have hlast := hiff.mp hfull
      constructor
      · intro _
        exact Or.inr ⟨hneg, hlast⟩
      · intro _
        omega
    case isFalse hfull =>
      have hlast : b ≠ 999999999 := fun h => hfull (hiff.mpr h)
      constructor
      · intro h
        left
        omega
      · rintro (h | ⟨_, h⟩)
        · omega
        · exact absurd h hlast
  · rw [RateMap.inverse_forward_of_nonneg hN hpos ha hb hlt, abs_of_nonneg hpos]
    have hp : 0 ≤ mult * b := mul_nonneg hpos hb
    generalize mult * b = p at hp ⊢
    constructor
    · intro h
      left
      omega
    · rintro (h | ⟨h, _⟩)
      · omega
      · omega

/-! ## The round trip of the code -/

/-- No signed intermediate of `rem2loc m false` overflows on the timeline time `v`. -/
structure Rem2locFits (m : TlTranslation) (v : Int) : Prop where
  diff : Fits64 (v - m.nsec.toInt)
  result : Fits64 (m.last.toInt
    + RateMap.inverse 1000000000 m.mult.toInt (v - m.nsec.toInt))

variable {m : TlTranslation}

theorem ratePositive_of_maxAdj (h : |m.mult.toInt| ≤ maxAdj) : RatePositive m := by
  obtain ⟨hlow, hhigh⟩ := abs_le.mp h
  unfold maxAdj at hlow hhigh
  omega

/-- The round trip of a core time, under no overflow, is the integer one. -/
theorem toInt_rem2loc_loc2rem {c : Int64} (hrate : RatePositive m) (hc : m.last.toInt ≤ c.toInt)
    (hfwd : Loc2remFits m c.toInt) (hback : Rem2locFits m (m.reading c.toInt)) :
    (rem2loc m false (loc2rem m false c)).toInt
      = m.last.toInt + RateMap.inverse 1000000000 m.mult.toInt
          (RateMap.forward 1000000000 m.mult.toInt (c.toInt - m.last.toInt)) := by
  have hdist : m.reading c.toInt - m.nsec.toInt
      = RateMap.forward 1000000000 m.mult.toInt (c.toInt - m.last.toInt) := by
    unfold TlTranslation.reading
    omega
  have hnonneg := RateMap.forward_nonneg (N := 1000000000) (by omega) hrate.1
    (show 0 ≤ c.toInt - m.last.toInt by omega)
  have hdiff := hback.diff
  have hres := hback.result
  rw [hdist] at hdiff hres
  rw [toInt_rem2loc hrate, toInt_loc2rem hfwd, hdist]
  unfold TlTranslation.lag
  rw [Int.emod_eq_of_lt hnonneg (by omega), add_sub_assoc, ← RateMap.inverse_eq,
    wrap64_of_fits hres]

theorem toInt_rem2loc_loc2rem_period {p : Int64} (hrate : RatePositive m) (hp : 0 ≤ p.toInt)
    (hfwd : Loc2remPeriodFits m p.toInt) (hback : Fits64 (RateMap.inverse 1000000000 m.mult.toInt
      (RateMap.forward 1000000000 m.mult.toInt p.toInt))) :
    (rem2loc m true (loc2rem m true p)).toInt
      = RateMap.inverse 1000000000 m.mult.toInt
          (RateMap.forward 1000000000 m.mult.toInt p.toInt) := by
  have hnonneg := RateMap.forward_nonneg (N := 1000000000) (by omega) hrate.1 hp
  have hfwd' := toInt_loc2rem_period hfwd
  rw [toInt_rem2loc_period hrate (by omega), hfwd', wrap64_of_fits hback]

/-- The core-time round trip of one pair of projections is within one nanosecond. -/
abbrev InvertsAt (back fwd : Bool → Int64 → Int64) (period : Bool) (c : Int64) : Prop :=
  |(back period (fwd period c)).toInt - c.toInt| ≤ 1

/-- A core time at or after the discipline point at which neither projection of `m` overflows. -/
structure CoreRoundTripFits (m : TlTranslation) (c : Int64) : Prop where
  rate : |m.mult.toInt| ≤ maxAdj
  later : m.last.toInt ≤ c.toInt
  forward : Loc2remFits m c.toInt
  backward : Rem2locFits m (m.reading c.toInt)

structure PeriodRoundTripFits (m : TlTranslation) (p : Int64) : Prop where
  rate : |m.mult.toInt| ≤ maxAdj
  nonneg : 0 ≤ p.toInt
  forward : Loc2remPeriodFits m p.toInt
  backward : Fits64 (RateMap.inverse 1000000000 m.mult.toInt
    (RateMap.forward 1000000000 m.mult.toInt p.toInt))

theorem invertsAt_core_iff {c : Int64} (h : CoreRoundTripFits m c) :
    InvertsAt (rem2loc m) (loc2rem m) false c
      ↔ RestNegligible m.mult.toInt (c.toInt - m.last.toInt) := by
  have hlater := h.later
  unfold InvertsAt
  rw [toInt_rem2loc_loc2rem (ratePositive_of_maxAdj h.rate) hlater h.forward h.backward,
    ← roundTrip_iff h.rate (by omega)]
  ring_nf

theorem invertsAt_period_iff {p : Int64} (h : PeriodRoundTripFits m p) :
    InvertsAt (rem2loc m) (loc2rem m) true p ↔ RestNegligible m.mult.toInt p.toInt := by
  unfold InvertsAt
  rw [toInt_rem2loc_loc2rem_period (ratePositive_of_maxAdj h.rate) h.nonneg h.forward h.backward,
    roundTrip_iff h.rate h.nonneg]

/-- **The inverse projections undo the projections up to one nanosecond exactly when the rest of
the elapsed time is negligible** — for core times and for durations, on a local timeline and on
the global clock. -/
theorem qot_projection_round_trip_iff (timelineImpl clkglParams : TlTranslation) :
    (∀ c, CoreRoundTripFits timelineImpl c →
        (InvertsAt (qotRem2loc timelineImpl) (qotLoc2rem timelineImpl) false c
          ↔ RestNegligible timelineImpl.mult.toInt (c.toInt - timelineImpl.last.toInt)))
      ∧ (∀ p, PeriodRoundTripFits timelineImpl p →
        (InvertsAt (qotRem2loc timelineImpl) (qotLoc2rem timelineImpl) true p
          ↔ RestNegligible timelineImpl.mult.toInt p.toInt))
      ∧ (∀ c, CoreRoundTripFits clkglParams c →
        (InvertsAt (qotGlRem2loc clkglParams) (qotGlLoc2rem clkglParams) false c
          ↔ RestNegligible clkglParams.mult.toInt (c.toInt - clkglParams.last.toInt)))
      ∧ (∀ p, PeriodRoundTripFits clkglParams p →
        (InvertsAt (qotGlRem2loc clkglParams) (qotGlLoc2rem clkglParams) true p
          ↔ RestNegligible clkglParams.mult.toInt p.toInt)) :=
  ⟨fun _ => invertsAt_core_iff, fun _ => invertsAt_period_iff,
    fun _ => invertsAt_core_iff, fun _ => invertsAt_period_iff⟩

def fastTranslation : TlTranslation := { initTranslation with mult := 1000000 }

theorem fastTranslation_coreFits : CoreRoundTripFits fastTranslation 999999999 where
  rate := by decide
  later := by decide
  forward := ⟨by decide, by decide, by decide, by decide⟩
  backward := ⟨by decide, by decide⟩

theorem fastTranslation_periodFits : PeriodRoundTripFits fastTranslation 999999999 where
  rate := by decide
  nonneg := by decide
  forward := ⟨by decide, by decide⟩
  backward := by decide

/-- The condition at work one nanosecond before the full second. -/
theorem qot_projection_round_trip_iff_fast :
    (CoreRoundTripFits fastTranslation 999999999
        ∧ ¬ InvertsAt (qotRem2loc fastTranslation) (qotLoc2rem fastTranslation) false 999999999)
      ∧ (PeriodRoundTripFits fastTranslation 999999999
        ∧ ¬ InvertsAt (qotRem2loc fastTranslation) (qotLoc2rem fastTranslation) true
          999999999) := by
  obtain ⟨hcore, hperiod, -, -⟩ := qot_projection_round_trip_iff fastTranslation fastTranslation
  refine ⟨⟨fastTranslation_coreFits, ?_⟩, fastTranslation_periodFits, ?_⟩
  · rw [hcore _ fastTranslation_coreFits]
    decide
  · rw [hperiod _ fastTranslation_periodFits]
    decide

/-- **The projections are not inverse.** At the fastest rate the last nanosecond of the first
second comes back 999999 ns late, on a local timeline and on the global clock, as a time and as a
duration. -/
theorem qot_projection_not_inverse :
    CoreRoundTripFits fastTranslation 999999999
      ∧ PeriodRoundTripFits fastTranslation 999999999
      ∧ qotRem2loc fastTranslation false (qotLoc2rem fastTranslation false 999999999)
          = 999999999 + 999999
      ∧ ¬ InvertsAt (qotRem2loc fastTranslation) (qotLoc2rem fastTranslation) false 999999999
      ∧ ¬ InvertsAt (qotRem2loc fastTranslation) (qotLoc2rem fastTranslation) true 999999999
      ∧ ¬ InvertsAt (qotGlRem2loc fastTranslation) (qotGlLoc2rem fastTranslation) false 999999999
      ∧ ¬ InvertsAt (qotGlRem2loc fastTranslation) (qotGlLoc2rem fastTranslation) true
          999999999 :=
  ⟨fastTranslation_coreFits, fastTranslation_periodFits, by decide, by decide, by decide,
    by decide, by decide⟩

/-! ## Long after the last discipline

`loc2rem` multiplies before it divides. All its sums wrap consistently, so only the product can
spoil the result. -/

/-- **What `loc2rem` computes**, wrapping included: the correction is that of the wrapped
product. -/
theorem toInt_loc2rem_wrap (m : TlTranslation) (c : Int64) :
    (loc2rem m false c).toInt
      = wrap64 (m.nsec.toInt + (c.toInt - m.last.toInt)
          + (wrap64 (m.mult.toInt * (c.toInt - m.last.toInt))).tdiv 1000000000) := by
  have hprod : (m.mult * (c - m.last)).toInt
      = wrap64 (m.mult.toInt * (c.toInt - m.last.toInt)) := by
    rw [toInt_mul_eq, toInt_sub_eq, ← bmod_eq_wrap64, ← bmod_eq_wrap64, ← bmod_eq_wrap64,
      Int.mul_bmod_bmod]
  unfold loc2rem
  simp only [Bool.false_eq_true, if_false]
  rw [toInt_add_eq, toInt_add_eq, toInt_sub_eq, toInt_div_of_two_le (by decide), hprod,
    toInt_billion]
  unfold wrap64
  omega

theorem tdiv_billion_bounds (p : Int) :
    p - 1000000000 < 1000000000 * p.tdiv 1000000000
      ∧ 1000000000 * p.tdiv 1000000000 < p + 1000000000 := by
  have hsplit := Int.mul_tdiv_add_tmod p 1000000000
  have hupper := Int.tmod_lt_of_pos p (show (0 : Int) < 1000000000 by omega)
  have hlower := Int.lt_tmod_of_pos p (show (0 : Int) < 1000000000 by omega)
  omega

/-- A product that wraps is moved by at least `2 ^ 64`, and its quotient with it. -/
theorem tdiv_wrap64_ne {p : Int} (h : ¬ Fits64 p) :
    (wrap64 p).tdiv 1000000000 ≠ p.tdiv 1000000000 := by
  have hp := tdiv_billion_bounds p
  have hw := tdiv_billion_bounds (wrap64 p)
  unfold wrap64 at hw ⊢
  omega

/-- At core time `c` the projection gives the exact reading. -/
abbrev ExactAt (loc2rem : Bool → Int64 → Int64) (m : TlTranslation) (c : Int64) : Prop :=
  (loc2rem false c).toInt = m.reading c.toInt

/-- **The projection is exact exactly when its product fits**, whatever else wraps. -/
theorem exactAt_iff {c : Int64} (hrate : |m.mult.toInt| ≤ maxAdj)
    (hfits : Fits64 (m.reading c.toInt)) :
    ExactAt (loc2rem m) m c ↔ Fits64 (m.mult.toInt * (c.toInt - m.last.toInt)) := by
  have hc := fits_toInt c
  have hl := fits_toInt m.last
  obtain ⟨hlow, hhigh⟩ := abs_le.mp hrate
  unfold Fits64 at hc hl
  unfold maxAdj at hlow hhigh
  unfold ExactAt
  rw [toInt_loc2rem_wrap]
  rw [reading_eq] at hfits ⊢
  constructor
  · intro hexact
    by_contra hover
    have hne := tdiv_wrap64_ne hover
    -- both quotients are far below `2 ^ 63`, so the final reduction cannot hide the gap
    have hupper : m.mult.toInt * (c.toInt - m.last.toInt) ≤ 1000000 * 18446744073709551616 := by
      nlinarith
    have hlower : -(1000000 * 18446744073709551616)
        ≤ m.mult.toInt * (c.toInt - m.last.toInt) := by
      nlinarith
    generalize m.mult.toInt * (c.toInt - m.last.toInt) = p at *
    have hp := tdiv_billion_bounds p
    have hw := tdiv_billion_bounds (wrap64 p)
    unfold wrap64 at hexact hne hw
    omega
  · intro hprod
    rw [wrap64_of_fits hprod, wrap64_of_fits hfits]

/-- Two core times at or after the discipline point whose exact readings are representable. -/
structure ReadingsFit (m : TlTranslation) (c₁ c₂ : Int64) : Prop where
  rate : |m.mult.toInt| ≤ maxAdj
  later : m.last.toInt ≤ c₁.toInt
  ordered : c₁.toInt ≤ c₂.toInt
  first : Fits64 (m.reading c₁.toInt)
  second : Fits64 (m.reading c₂.toInt)

/-- The projection is exact at both core times, and the later one reads no earlier. -/
abbrev ExactAndOrdered (loc2rem : Bool → Int64 → Int64) (m : TlTranslation) (c₁ c₂ : Int64) :
    Prop :=
  ExactAt loc2rem m c₁ ∧ ExactAt loc2rem m c₂
    ∧ (loc2rem false c₁).toInt ≤ (loc2rem false c₂).toInt

/-- The product of an earlier core time lies between zero and that of a later one. -/
theorem product_fits_of_le {c₁ c₂ : Int} (hlater : m.last.toInt ≤ c₁) (h : c₁ ≤ c₂)
    (hfits : Fits64 (m.mult.toInt * (c₂ - m.last.toInt))) :
    Fits64 (m.mult.toInt * (c₁ - m.last.toInt)) := by
  rcases le_total 0 m.mult.toInt with hpos | hneg
  · have hle := mul_le_mul_of_nonneg_left (show c₁ - m.last.toInt ≤ c₂ - m.last.toInt by omega) hpos
    have hnonneg := mul_nonneg hpos (show 0 ≤ c₁ - m.last.toInt by omega)
    omega
  · have hle := mul_le_mul_of_nonpos_left (show c₁ - m.last.toInt ≤ c₂ - m.last.toInt by omega) hneg
    have hnonpos := mul_nonpos_of_nonpos_of_nonneg hneg (show 0 ≤ c₁ - m.last.toInt by omega)
    omega

theorem exactAndOrdered_iff {c₁ c₂ : Int64} (h : ReadingsFit m c₁ c₂) :
    ExactAndOrdered (loc2rem m) m c₁ c₂
      ↔ Fits64 (m.mult.toInt * (c₂.toInt - m.last.toInt)) := by
  constructor
  · rintro ⟨-, hsecond, -⟩
    exact (exactAt_iff h.rate h.second).mp hsecond
  · intro hprod
    have hfirst := (exactAt_iff h.rate h.first).mpr (product_fits_of_le h.later h.ordered hprod)
    have hsecond := (exactAt_iff h.rate h.second).mpr hprod
    refine ⟨hfirst, hsecond, ?_⟩
    -- exact readings are ordered because the rate is positive
    rw [hfirst, hsecond]
    exact reading_mono (ratePositive_of_maxAdj h.rate).1 h.ordered

/-- **Between two disciplines the time is exact and does not go back exactly as long as the rate
correction of the elapsed time fits in 64 bits before it is divided** — on a local timeline and on
the global clock. -/
theorem qot_loc2rem_exact_iff (timelineImpl clkglParams : TlTranslation) (c₁ c₂ : Int64) :
    (ReadingsFit timelineImpl c₁ c₂ →
        (ExactAndOrdered (qotLoc2rem timelineImpl) timelineImpl c₁ c₂
          ↔ Fits64 (timelineImpl.mult.toInt * (c₂.toInt - timelineImpl.last.toInt))))
      ∧ (ReadingsFit clkglParams c₁ c₂ →
        (ExactAndOrdered (qotGlLoc2rem clkglParams) clkglParams c₁ c₂
          ↔ Fits64 (clkglParams.mult.toInt * (c₂.toInt - clkglParams.last.toInt)))) :=
  ⟨exactAndOrdered_iff, exactAndOrdered_iff⟩

/-- The last two nanoseconds before the product of the fastest rate overflows, a little over two
and a half hours after the discipline. -/
theorem fastTranslation_readingsFit : ReadingsFit fastTranslation 9223372036853 9223372036854 where
  rate := by decide
  later := by decide
  ordered := by decide
  first := by decide
  second := by decide

theorem qot_loc2rem_exact_iff_fast :
    ReadingsFit fastTranslation 9223372036853 9223372036854
      ∧ ExactAndOrdered (qotLoc2rem fastTranslation) fastTranslation 9223372036853 9223372036854
      ∧ ExactAndOrdered (qotGlLoc2rem fastTranslation) fastTranslation 9223372036853
        9223372036854 := by
  obtain ⟨hlocal, hglobal⟩ :=
    qot_loc2rem_exact_iff fastTranslation fastTranslation 9223372036853 9223372036854
  refine ⟨fastTranslation_readingsFit, ?_, ?_⟩
  · rw [hlocal fastTranslation_readingsFit]
    decide
  · rw [hglobal fastTranslation_readingsFit]
    decide

theorem fastTranslation_readingsFit_next :
    ReadingsFit fastTranslation 9223372036854 9223372036855 where
  rate := by decide
  later := by decide
  ordered := by decide
  first := by decide
  second := by decide

/-- **The time jumps back by eighteen seconds** when the product overflows, while the exact
readings are nowhere near the end of the range. -/
theorem qot_loc2rem_goes_back :
    ReadingsFit fastTranslation 9223372036854 9223372036855
      ∧ qotLoc2rem fastTranslation false 9223372036854 = 9232595408890
      ∧ qotLoc2rem fastTranslation false 9223372036855 = 9214148664819
      ∧ ¬ ExactAndOrdered (qotLoc2rem fastTranslation) fastTranslation 9223372036854 9223372036855
      ∧ ¬ ExactAndOrdered (qotGlLoc2rem fastTranslation) fastTranslation 9223372036854
        9223372036855 :=
  ⟨fastTranslation_readingsFit_next, by decide, by decide, by decide, by decide⟩

end Qot
