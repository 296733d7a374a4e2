import QotStack.Lib.RateMap
import QotStack.Types.Time

/-!
# QotStack — the mapping between core time and timeline time

Every timeline keeps a linear mapping from the core clock to its own time: at core time `last` it
read `nsec`, and since then it runs `mult` parts per billion faster than the core clock. Local
timelines keep theirs in `timeline_impl_t` (`qot_timeline_chdev.c`); all global timelines share
`clkgl_params` (`qot_clock_gl.c`). Both files carry the same two projections:

* `loc2rem` — core to timeline, a truncating rate map;
* `rem2loc` — timeline to core, by a 64-by-32-bit division whose remainder is added as it is.

The definitions compute in machine words. `toInt_loc2rem` and `toInt_rem2loc` are their
specifications over the integers: the first needs the intermediates to fit, the second needs only
a positive 32-bit divisor and says what the code computes even when it wraps.
-/

namespace Qot

open MachineInt

/-- Timeline mapping and uncertainty parameters (`tl_translation_t`). -/
structure TlTranslation where
  last : Int64
  mult : Int64
  nsec : Int64
  uNsec : Int64
  lNsec : Int64
  uMult : Int64
  lMult : Int64
  deriving DecidableEq, Repr

/-- The parameters a registration (or `qot_clock_gl_init`) leaves behind. -/
def initTranslation : TlTranslation := ⟨0, 0, 0, 0, 0, 0, 0⟩

/-- Whether a timeline has a mapping of its own or shares the global one. -/
inductive QotTimelineType where
  | qotTimelineLocal
  | qotTimelineGlobal
  deriving DecidableEq, Repr

/-! ## The projections -/

/-- Project a core time (or, with `period`, a duration) to the timeline. -/
def loc2rem (m : TlTranslation) (period : Bool) (val : Int64) : Int64 :=
  if period then val + m.mult * val / 1000000000
  else
    let val := val - m.last
    m.nsec + val + m.mult * val / 1000000000

/-- The 32-bit divisor of the inverse projection: the rate in parts per billion. -/
def rateDivisor (m : TlTranslation) : UInt32 := (m.mult + 1000000000).toUInt64.toUInt32

/-- Project a timeline time (or, with `period`, a duration) to core time. -/
def rem2loc (m : TlTranslation) (period : Bool) (val : Int64) : Int64 :=
  if period then
    let quot := val.toUInt64 / (rateDivisor m).toUInt64
    let rem := (val.toUInt64 % (rateDivisor m).toUInt64).toUInt32
    quot.toInt64 * 1000000000 + rem.toUInt64.toInt64
  else
    -- a time before `nsec` becomes a distance of almost `2 ^ 64`
    let diff := (val - m.nsec).toUInt64
    let quot := diff / (rateDivisor m).toUInt64
    let rem := (diff % (rateDivisor m).toUInt64).toUInt32
    m.last + (quot * 1000000000).toInt64 + rem.toUInt64.toInt64

/-- `qot_loc2rem`: the projection with a local timeline's own parameters. -/
def qotLoc2rem (timelineImpl : TlTranslation) : Bool → Int64 → Int64 := loc2rem timelineImpl

def qotRem2loc (timelineImpl : TlTranslation) : Bool → Int64 → Int64 := rem2loc timelineImpl

/-- `qot_gl_loc2rem`: the same projection with the shared global parameters. -/
def qotGlLoc2rem (clkglParams : TlTranslation) : Bool → Int64 → Int64 := loc2rem clkglParams

def qotGlRem2loc (clkglParams : TlTranslation) : Bool → Int64 → Int64 := rem2loc clkglParams

/-- The mapping a timeline of this type is read through. -/
def mappingInForce (type : QotTimelineType) (timelineImpl clkglParams : TlTranslation) :
    TlTranslation :=
  match type with
  | .qotTimelineLocal => timelineImpl
  | .qotTimelineGlobal => clkglParams

def qotCoreToRemote (type : QotTimelineType) (timelineImpl clkglParams : TlTranslation)
    (coreTime : Timepoint) : Timepoint :=
  match type with
  | .qotTimelineLocal => tpFromNsec (qotLoc2rem timelineImpl false (tpToNsec coreTime))
  | .qotTimelineGlobal => tpFromNsec (qotGlLoc2rem clkglParams false (tpToNsec coreTime))

def qotRemoteToCore (type : QotTimelineType) (timelineImpl clkglParams : TlTranslation)
    (remoteTime : Timepoint) : Timepoint :=
  match type with
  | .qotTimelineLocal => tpFromNsec (qotRem2loc timelineImpl false (tpToNsec remoteTime))
  | .qotTimelineGlobal => tpFromNsec (qotGlRem2loc clkglParams false (tpToNsec remoteTime))

theorem qotCoreToRemote_eq (type : QotTimelineType) (timelineImpl clkglParams : TlTranslation)
    (t : Timepoint) :
    qotCoreToRemote type timelineImpl clkglParams t
      = tpFromNsec (loc2rem (mappingInForce type timelineImpl clkglParams) false (tpToNsec t)) := by
  cases type <;> rfl

theorem qotRemoteToCore_eq (type : QotTimelineType) (timelineImpl clkglParams : TlTranslation)
    (t : Timepoint) :
    qotRemoteToCore type timelineImpl clkglParams t
      = tpFromNsec (rem2loc (mappingInForce type timelineImpl clkglParams) false (tpToNsec t)) := by
  cases type <;> rfl

/-! ## The mapping over the integers -/

/-- What the timeline reads at core time `c`, without machine widths: the claim of the comment
above `qot_loc2rem`. -/
def TlTranslation.reading (m : TlTranslation) (c : Int) : Int :=
  m.nsec.toInt + RateMap.forward 1000000000 m.mult.toInt (c - m.last.toInt)

/-- No signed intermediate of `loc2rem m false` overflows at core time `c`. -/
structure Loc2remFits (m : TlTranslation) (c : Int) : Prop where
  diff : Fits64 (c - m.last.toInt)
  product : Fits64 (m.mult.toInt * (c - m.last.toInt))
  offset : Fits64 (m.nsec.toInt + (c - m.last.toInt))
  reading : Fits64 (m.reading c)

structure Loc2remPeriodFits (m : TlTranslation) (p : Int) : Prop where
  product : Fits64 (m.mult.toInt * p)
  result : Fits64 (RateMap.forward 1000000000 m.mult.toInt p)

theorem toInt_billion : (1000000000 : Int64).toInt = 1000000000 := rfl

theorem reading_eq (m : TlTranslation) (c : Int) :
    m.reading c = m.nsec.toInt + (c - m.last.toInt)
      + (m.mult.toInt * (c - m.last.toInt)).tdiv 1000000000 := by
  unfold TlTranslation.reading RateMap.forward
  ring

variable {m : TlTranslation}

theorem reading_mono (hrate : -1000000000 < m.mult.toInt) {c c' : Int} (h : c ≤ c') :
    m.reading c ≤ m.reading c' := by
  unfold TlTranslation.reading
  have hmono := RateMap.forward_monotone (N := 1000000000) (m := m.mult.toInt) (by omega) hrate
    (show c - m.last.toInt ≤ c' - m.last.toInt by omega)
  omega

/-- **The projection is the reading** as long as nothing overflows. -/
theorem toInt_loc2rem {c : Int64} (h : Loc2remFits m c.toInt) :
    (loc2rem m false c).toInt = m.reading c.toInt := by
  have hread := h.reading
  rw [reading_eq] at hread ⊢
  unfold loc2rem
  have hdiff : (c - m.last).toInt = c.toInt - m.last.toInt := toInt_sub_of_fits h.diff
  have hprod : (m.mult * (c - m.last)).toInt = m.mult.toInt * (c.toInt - m.last.toInt) := by
    rw [toInt_mul_of_fits (by rw [hdiff]; exact h.product), hdiff]
  have hquot : (m.mult * (c - m.last) / 1000000000).toInt
      = (m.mult.toInt * (c.toInt - m.last.toInt)).tdiv 1000000000 := by
    rw [toInt_div_of_two_le (by decide), hprod, toInt_billion]
  have hoff : (m.nsec + (c - m.last)).toInt = m.nsec.toInt + (c.toInt - m.last.toInt) := by
    rw [toInt_add_of_fits (by rw [hdiff]; exact h.offset), hdiff]
  simp only [Bool.false_eq_true, if_false]
  rw [toInt_add_of_fits (by rw [hoff, hquot]; exact hread), hoff, hquot]

theorem toInt_loc2rem_period {p : Int64} (h : Loc2remPeriodFits m p.toInt) :
    (loc2rem m true p).toInt = RateMap.forward 1000000000 m.mult.toInt p.toInt := by
  have hres := h.result
  unfold RateMap.forward at hres ⊢
  unfold loc2rem
  have hquot : (m.mult * p / 1000000000).toInt
      = (m.mult.toInt * p.toInt).tdiv 1000000000 := by
    rw [toInt_div_of_two_le (by decide), toInt_mul_of_fits h.product, toInt_billion]
  simp only [if_true]
  rw [toInt_add_of_fits (by rw [hquot]; exact hres), hquot]

/-! ## The inverse over the integers -/

/-- The divisor is the true rate: `mult` moves it by less than one billion, and not to zero. -/
abbrev RatePositive (m : TlTranslation) : Prop :=
  -1000000000 < m.mult.toInt ∧ m.mult.toInt < 3294967296

section
variable (h : RatePositive m)
include h

theorem toNat_rateDivisor : ((rateDivisor m).toUInt64.toNat : Int) = 1000000000 + m.mult.toInt := by
  have hm := fits_toInt m.mult
  have hadd : (m.mult + 1000000000).toInt = m.mult.toInt + 1000000000 := by
    rw [toInt_add_of_fits (by rw [toInt_billion]; omega), toInt_billion]
  have hword := toNat_toUInt64 (m.mult + 1000000000)
  rw [hadd] at hword
  unfold rateDivisor
  rw [UInt32.toNat_toUInt64, toNat_toUInt32]
  omega

/-- The remainder survives the cut to 32 bits, since the divisor has 32 bits. -/
theorem toNat_rem_toUInt32 (n : UInt64) :
    ((n % (rateDivisor m).toUInt64).toUInt32.toUInt64.toNat : Int)
      = (n.toNat : Int) % (1000000000 + m.mult.toInt) := by
  have hd := toNat_rateDivisor h
  have hmod : ((n % (rateDivisor m).toUInt64).toNat : Int)
      = (n.toNat : Int) % (1000000000 + m.mult.toInt) := by
    rw [UInt64.toNat_mod, Int.natCast_emod, hd]
  have hlt := Int.emod_lt_of_pos (n.toNat : Int) (show 0 < 1000000000 + m.mult.toInt by omega)
  rw [UInt32.toNat_toUInt64, toNat_toUInt32]
  omega

theorem toNat_quot (n : UInt64) :
    ((n / (rateDivisor m).toUInt64).toNat : Int)
      = (n.toNat : Int) / (1000000000 + m.mult.toInt) := by
  rw [UInt64.toNat_div, Int.natCast_ediv, toNat_rateDivisor h]

/-- The core correction of the inverse: `mult` once for every whole quotient of the (unsigned)
distance `y` from the last discipline point. -/
def TlTranslation.lag (m : TlTranslation) (y : Int) : Int :=
  m.mult.toInt * (y % 18446744073709551616 / (1000000000 + m.mult.toInt))

/-- **What `rem2loc` computes**, wrapping included: `last` plus the distance from `nsec`, less the
correction of its whole quotients. -/
theorem toInt_rem2loc (v : Int64) :
    (rem2loc m false v).toInt
      = wrap64 (m.last.toInt + (v.toInt - m.nsec.toInt) - m.lag (v.toInt - m.nsec.toInt)) := by
  set y := v.toInt - m.nsec.toInt with hy
  have hdiff : ((v - m.nsec).toUInt64.toNat : Int) = y % 18446744073709551616 := by
    rw [toNat_toUInt64, toInt_sub_eq]
    unfold wrap64
    omega
  have hq := toNat_quot h (v - m.nsec).toUInt64
  have hr := toNat_rem_toUInt32 h (v - m.nsec).toUInt64
  rw [hdiff] at hq hr
  have hinv := RateMap.inverse_eq 1000000000 m.mult.toInt (y % 18446744073709551616)
  unfold RateMap.inverse at hinv
  unfold rem2loc
  simp only [Bool.false_eq_true, if_false]
  rw [toInt_add_eq, toInt_add_eq, toInt_toInt64, toInt_toInt64, UInt64.toNat_mul,
    show (1000000000 : UInt64).toNat = 1000000000 from rfl]
  unfold TlTranslation.lag
  -- everything is congruent modulo `2 ^ 64` to the same sum
  generalize hqq : y % 18446744073709551616 / (1000000000 + m.mult.toInt) = q at hq hinv ⊢
  generalize hrr : y % 18446744073709551616 % (1000000000 + m.mult.toInt) = r at hr hinv
  generalize m.mult.toInt * q = p at hinv ⊢
  push_cast
  rw [hq, hr]
  unfold wrap64
  omega

/-- What the duration inverse computes on a non-negative duration. -/
theorem toInt_rem2loc_period {v : Int64} (hv : 0 ≤ v.toInt) :
    (rem2loc m true v).toInt
      = wrap64 (RateMap.inverse 1000000000 m.mult.toInt v.toInt) := by
  have hdiff := toNat_toUInt64_of_nonneg hv
  have hq := toNat_quot h v.toUInt64
  have hr := toNat_rem_toUInt32 h v.toUInt64
  rw [hdiff] at hq hr
  unfold rem2loc RateMap.inverse
  simp only [if_true]
  rw [toInt_add_eq, toInt_mul_eq, toInt_toInt64, toInt_toInt64, toInt_billion, hq, hr]
  unfold wrap64
  omega

end

end Qot
