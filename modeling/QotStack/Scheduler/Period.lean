import QotStack.Lib.Periodic
import QotStack.Scheduler.Sleeper

/-!
# QotStack — the next release of a periodic activity

The kernel picks the first expiry of a timer (`qot_init_timer_sleeper`), and the two libraries the
next wake-up of a periodic task (`timeline_waituntil_nextperiod`), by one computation: the time
since the start offset, rounded up to whole periods, added to the start offset.

The time since the start comes from `timepoint_diff`, which takes the difference of the seconds and
the difference of the fractions apart, each without its sign, and the seconds through whatever
`abs` the file is compiled with. `apparentElapsed` is what it makes of two times in nanoseconds;
`nextPeriod_iff` says when that does no harm, `qot_next_release_iff` carries it to the three
functions.
-/

namespace Qot

open MachineInt

/-- How far `timeline_waituntil_nextperiod` gets. -/
inductive PeriodWait where
  /-- It returns an error before it waits. -/
  | error
  /-- It divides by zero. -/
  | fault
  /-- It hands this time to `QOTUSR_WAIT_UNTIL`. -/
  | wait (wakeupTime : Timepoint)
  deriving DecidableEq, Repr

def PeriodWait.wakeupTime : PeriodWait → Option Timepoint
  | .wait wakeupTime => some wakeupTime
  | _ => none

/-- The body of both libraries' functions. `fdOpen` is what `fcntl` says about the timeline's file,
`timeNow` the estimate of `TIMELINE_GET_TIME_NOW`, if the call succeeds. -/
def waituntilNextperiod (w : AbsWidth) (fdOpen : Bool) (timeNow : Option Timepoint)
    (startOffset : Timepoint) (period : Timelength) : PeriodWait :=
  if fdOpen then
    match timeNow with
    | none => .error
    | some now =>
      match nextPeriod w period startOffset now with
      | none => .fault
      | some wakeupTime => .wait wakeupTime
  else .error

/-- `api/c/qot.c`. -/
def C.timelineWaituntilNextperiod : AbsWidth → Bool → Option Timepoint → Timepoint →
    Timelength → PeriodWait :=
  waituntilNextperiod

/-- `api/cpp/qot.cpp`. -/
def Cpp.timelineWaituntilNextperiod : AbsWidth → Bool → Option Timepoint → Timepoint →
    Timelength → PeriodWait :=
  waituntilNextperiod

/-! ## Whole nanoseconds -/

/-- The record denotes `ns` nanoseconds. -/
@[mk_iff]
structure Timepoint.IsNs (t : Timepoint) (ns : Int) : Prop where
  sec : t.sec.toInt = ns / 1000000000
  asec : (t.asec.toNat : Int) = ns % 1000000000 * 1000000000

@[mk_iff]
structure Timelength.IsNs (l : Timelength) (ns : Nat) : Prop where
  sec : l.sec.toNat = ns / 1000000000
  asec : l.asec.toNat = ns % 1000000000 * 1000000000

instance (t : Timepoint) (ns : Int) : Decidable (t.IsNs ns) := decidable_of_iff' _ (t.isNs_iff ns)

instance (l : Timelength) (ns : Nat) : Decidable (l.IsNs ns) := decidable_of_iff' _ (l.isNs_iff ns)

theorem timepointCmp_neg_isNs {t1 t2 : Timepoint} {n1 n2 : Int} (h1 : t1.IsNs n1)
    (h2 : t2.IsNs n2) : timepointCmp t1 t2 < 0 ↔ n2 < n1 := by
  have hs1 := h1.sec
  have hs2 := h2.sec
  have ha1 := h1.asec
  have ha2 := h2.asec
  rw [timepointCmp_neg]
  unfold Timepoint.rank
  constructor <;> intro h <;> omega

theorem toNat_tlToNsec_isNs {l : Timelength} {n : Nat} (h : l.IsNs n) :
    (tlToNsec l).toNat = n % 18446744073709551616 := by
  have hs := h.sec
  have ha := h.asec
  unfold tlToNsec
  rw [UInt64.toNat_add, UInt64.toNat_mul, UInt64.toNat_div, hs, ha,
    show nSecPerSec.toNat = 1000000000 from rfl]
  omega

variable {s n : Int} {start now : Timepoint} {p : Nat}

/-- Adding `n` nanoseconds: exact but for the seconds, which wrap. -/
theorem timepointAdd_tlFromNsec {t : Timepoint} (h : t.IsNs s) (n : UInt64) :
    (timepointAdd t (tlFromNsec n)).sec.toInt = wrap64 ((s + n.toNat) / 1000000000)
      ∧ ((timepointAdd t (tlFromNsec n)).asec.toNat : Int)
        = (s + n.toNat) % 1000000000 * 1000000000 := by
  have hs := h.sec
  have ha := h.asec
  have hn := toNat_lt n
  obtain ⟨hvalue, hnorm⟩ := tlFromNsec_value n
  generalize tlFromNsec n = l at hvalue hnorm
  unfold Timelength.value at hvalue
  have hsum : (t.asec + l.asec).toNat = t.asec.toNat + l.asec.toNat := by
    rw [UInt64.toNat_add]
    omega
  have hcarry : ((t.asec + l.asec) / aSecPerSec).toNat
      = (t.asec.toNat + l.asec.toNat) / 1000000000000000000 := by
    rw [UInt64.toNat_div, hsum]
    rfl
  have hwhole : ((t.asec + l.asec) / aSecPerSec * aSecPerSec).toNat
      = (t.asec.toNat + l.asec.toNat) / 1000000000000000000 * 1000000000000000000 := by
    rw [UInt64.toNat_mul, hcarry, show aSecPerSec.toNat = 1000000000000000000 from rfl]
    omega
  unfold timepointAdd
  simp only
  constructor
  · rw [toInt_add_eq, toInt_add_eq, toInt_toInt64, toInt_toInt64, hcarry]
    unfold wrap64
    omega
  · rw [UInt64.toNat_sub_of_le _ _ (UInt64.le_iff_toNat_le.mpr (by omega)), hwhole, hsum]
    omega

/-! ## What `timepoint_diff` makes of the elapsed time -/

/-- The absolute value of a difference of seconds: exact, or cut to 32 bits before and after. -/
def AbsWidth.secs (w : AbsWidth) (d : Int) : Int :=
  match w with
  | .int => wrap32 (wrap32 d).natAbs
  | .wide => d.natAbs

/-- The nanoseconds the code believes to lie between `start` and `now`: seconds and fractions are
subtracted apart, and both differences lose their sign. -/
def apparentElapsed (w : AbsWidth) (start now : Int) : Nat :=
  ((w.secs (now / 1000000000 - start / 1000000000) * 1000000000
    + (now % 1000000000 - start % 1000000000).natAbs) % 18446744073709551616).toNat

section
variable (w : AbsWidth)
include w

theorem toNat_absSec (d : Int64) :
    ((absSec w d).toNat : Int) = w.secs d.toInt % 18446744073709551616 := by
  have hd := fits_toInt d
  cases w with
  | int =>
    have hcut : d.toInt32.toInt = wrap32 d.toInt := by
      rw [Int64.toInt_toInt32, bmod_eq_wrap32]
    simp only [absSec, AbsWidth.secs]
    rw [toNat_toUInt64, Int32.toInt_toInt64]
    simp only [Int32.lt_iff_toInt_lt, show (0 : Int32).toInt = 0 from rfl]
    split
    · rw [Int32.toInt_neg, bmod_eq_wrap32, hcut, show ((wrap32 d.toInt).natAbs : Int)
        = -wrap32 d.toInt by omega]
    · next hneg =>
      rw [hcut] at hneg ⊢
      unfold wrap32 at hneg ⊢
      omega
  | wide =>
    simp only [absSec, AbsWidth.secs, toNat_toUInt64, Int64.lt_iff_toInt_lt,
      Int64.toInt_zero]
    split
    · rw [toInt_neg_eq]
      unfold wrap64
      omega
    · omega

theorem toNat_timepointDiffWith_asec (t1 t2 : Timepoint) :
    ((timepointDiffWith w t1 t2).asec.toNat : Int)
      = ((t1.asec.toNat : Int) - t2.asec.toNat).natAbs := by
  have h1 := toNat_lt t1.asec
  have h2 := toNat_lt t2.asec
  unfold timepointDiffWith
  simp only [gt_iff_lt, UInt64.lt_iff_toNat_lt]
  split <;> rw [UInt64.toNat_sub] <;> omega

/-- **The elapsed time as the code computes it.** -/
theorem toNat_elapsed (hs : start.IsNs s) (hn : now.IsNs n) (hfits : Fits64 (n - s)) :
    (tlToNsec (timepointDiffWith w now start)).toNat = apparentElapsed w s n := by
  have hss := hs.sec
  have hns := hn.sec
  have hsa := hs.asec
  have hna := hn.asec
  have hdiff : (now.sec - start.sec).toInt = n / 1000000000 - s / 1000000000 := by
    rw [toInt_sub_of_fits (by omega), hns, hss]
  have hsec : ((timepointDiffWith w now start).sec.toNat : Int)
      = w.secs (n / 1000000000 - s / 1000000000) % 18446744073709551616 := by
    show ((absSec w (now.sec - start.sec)).toNat : Int) = _
    rw [toNat_absSec, hdiff]
  have hasec := toNat_timepointDiffWith_asec w now start
  rw [hna, hsa] at hasec
  unfold tlToNsec apparentElapsed
  rw [UInt64.toNat_add, UInt64.toNat_mul, UInt64.toNat_div,
    show nSecPerSec.toNat = 1000000000 from rfl]
  generalize w.secs (n / 1000000000 - s / 1000000000) = d at hsec
  omega

theorem apparentElapsed_self (t : Int) : apparentElapsed w t t = 0 := by
  unfold apparentElapsed
  rw [sub_self, sub_self]
  cases w <;> rfl

theorem apparentElapsed_lt (start now : Int) :
    apparentElapsed w start now < 18446744073709551616 := by
  unfold apparentElapsed
  omega

/-! ## Which release is chosen -/

/-- The chosen time is the least release that is not before `now`. -/
def ChoosesNext (start : Int) (period : Nat) (now : Int) (chosen : Option Timepoint) : Prop :=
  ∃ t r, chosen = some t ∧ t.IsNs r ∧ Periodic.IsNext start period now r

/-- The start is still to come, or: the period fits in 64 bits (a longer one is harmless only at
the very start), the next release can be represented, and no release lies between `now` and the
time the code takes for it. -/
def ElapsedHarmless (w : AbsWidth) (start : Int) (period : Nat) (now : Int) : Prop :=
  now < start
    ∨ ((period < 2 ^ 64 ∨ (now = start ∧ period % 2 ^ 64 ≠ 0))
      ∧ (∀ r, Periodic.IsNext start period now r → r < 2 ^ 63 * 1000000000)
      ∧ ∀ k : Nat, start + period * k < now
        ↔ start + period * k < start + apparentElapsed w start now)

theorem nextPeriod_of_lt (hs : start.IsNs s) (hn : now.IsNs n) (hlt : n < s)
    (period : Timelength) : nextPeriod w period start now = some start := by
  unfold nextPeriod
  rw [if_pos ((timepointCmp_neg_isNs hs hn).mpr hlt)]

/-- What is computed once the start has passed, for any records: the time `timepoint_diff` gives
rounded up to whole periods, modulo `2 ^ 64`. -/
theorem nextPeriod_of_not_before (period : Timelength) (h : ¬ timepointCmp start now < 0) :
    (tlToNsec period = 0 ∧ nextPeriod w period start now = none)
      ∨ (tlToNsec period ≠ 0 ∧ ∃ T : UInt64,
        T.toNat = (tlToNsec period).toNat
            * ((tlToNsec (timepointDiffWith w now start)).toNat ⌈/⌉ (tlToNsec period).toNat)
            % 2 ^ 64
          ∧ nextPeriod w period start now = some (timepointAdd start (tlFromNsec T))) := by
  unfold nextPeriod
  rw [if_neg h]
  generalize tlToNsec (timepointDiffWith w now start) = e
  generalize tlToNsec period = q
  by_cases hq : q = 0
  · exact Or.inl ⟨hq, by simp [hq]⟩
  · have hpos : 0 < q.toNat := by
      rw [Nat.pos_iff_ne_zero, ne_eq, ← UInt64.toNat_zero, UInt64.toNat_inj]
      exact hq
    have helt := toNat_lt e
    refine Or.inr ⟨hq, q * (if e % q ≠ 0 then e / q + 1 else e / q), ?_, by simp only [if_neg hq]⟩
    rw [UInt64.toNat_mul, Periodic.ceilDiv_eq_div_add _ hpos]
    congr 2
    -- the count of periods itself does not wrap
    have hrem : e % q ≠ 0 ↔ e.toNat % q.toNat ≠ 0 := by
      rw [ne_eq, ← UInt64.toNat_inj, UInt64.toNat_mod]
      rfl
    by_cases hr : e.toNat % q.toNat = 0
    · rw [if_neg (by rw [hrem]; exact not_not_intro hr), if_pos hr, UInt64.toNat_div]
    · have htwo : 2 ≤ q.toNat := by
        by_contra hsmall
        have hone : q.toNat = 1 := by omega
        exact hr (by rw [hone, Nat.mod_one])
      have hquot : e.toNat / q.toNat ≤ e.toNat / 2 := Nat.div_le_div_left htwo (by decide)
      rw [if_pos (hrem.mpr hr), if_neg hr, UInt64.toNat_add, UInt64.toNat_div,
        UInt64.toNat_one]
      exact Nat.mod_eq_of_lt (by omega)

/-- For whole nanoseconds, the apparent elapsed time. -/
theorem nextPeriod_of_le {period : Timelength} (hs : start.IsNs s) (hn : now.IsNs n)
    (hp : period.IsNs p) (hfits : Fits64 (n - s)) (hle : s ≤ n) :
    (p % 2 ^ 64 = 0 ∧ nextPeriod w period start now = none)
      ∨ (p % 2 ^ 64 ≠ 0 ∧ ∃ T : UInt64,
        T.toNat = p % 2 ^ 64 * (apparentElapsed w s n ⌈/⌉ (p % 2 ^ 64)) % 2 ^ 64
          ∧ nextPeriod w period start now = some (timepointAdd start (tlFromNsec T))) := by
  have hperiod : (tlToNsec period).toNat = p % 2 ^ 64 := toNat_tlToNsec_isNs hp
  have hzero : tlToNsec period = 0 ↔ p % 2 ^ 64 = 0 := by
    rw [← hperiod, ← UInt64.toNat_inj]
    rfl
  have hstarted : ¬ timepointCmp start now < 0 := by
    rw [timepointCmp_neg_isNs hs hn]
    omega
  rw [← toNat_elapsed w hs hn hfits, ne_eq, ← hzero, ← hperiod]
  exact nextPeriod_of_not_before w _ hstarted

end

/-- Adding `T` to the start hits the next release exactly when `T` is the rounded-up elapsed time
and the seconds do not overflow. -/
theorem choosesNext_add_iff {e : Nat} (hs : start.IsNs s) (hp : 0 < p) (hn : n = s + e)
    (T : UInt64) :
    ChoosesNext s p n (some (timepointAdd start (tlFromNsec T)))
      ↔ T.toNat = p * (e ⌈/⌉ p) ∧ s + T.toNat < 2 ^ 63 * 1000000000 := by
  have hsec := hs.sec
  have hfit := fits_toInt start.sec
  have hT := toNat_lt T
  obtain ⟨haddsec, haddasec⟩ := timepointAdd_tlFromNsec hs T
  constructor
  · rintro ⟨_, r, ⟨⟩, hr, hnext⟩
    rw [Periodic.isNext_iff_of_le hp hn] at hnext
    have hrsec := hr.sec
    have hrasec := hr.asec
    rw [haddsec] at hrsec
    rw [haddasec] at hrasec
    unfold wrap64 at hrsec
    generalize p * (e ⌈/⌉ p) = m at *
    omega
  · rintro ⟨heq, hlt⟩
    refine ⟨_, s + T.toNat, rfl, ⟨?_, haddasec⟩, ?_⟩
    · rw [haddsec]
      exact wrap64_of_fits (by omega)
    · rw [Periodic.isNext_iff_of_le hp hn, heq]

/-- A release of a period beyond 64 bits cannot be reached by adding a 64-bit time. -/
theorem choosesNext_of_long_period {e : Nat} {T : UInt64} (hs : start.IsNs s) (hlong : 2 ^ 64 ≤ p)
    (hn : n = s + e) (h : ChoosesNext s p n (some (timepointAdd start (tlFromNsec T)))) :
    e = 0 := by
  have hp : 0 < p := by omega
  have hT := toNat_lt T
  obtain ⟨heq, -⟩ := (choosesNext_add_iff hs hp hn T).mp h
  have hle := Periodic.le_round_up e hp
  rcases Nat.eq_zero_or_pos (e ⌈/⌉ p) with hzero | hpos
  · rw [hzero] at hle
    omega
  · have hmul := Nat.mul_le_mul_left p hpos
    omega

/-- The condition `e` nanoseconds after the start, in periods: the misread elapsed time must round
up to as many. -/
theorem elapsedHarmless_iff_of_le (w : AbsWidth) {e : Nat} (hpos : 0 < p) (he : n = s + e) :
    ElapsedHarmless w s p n ↔ (p < 2 ^ 64 ∨ (n = s ∧ p % 2 ^ 64 ≠ 0))
      ∧ s + (p * (e ⌈/⌉ p) : Nat) < 2 ^ 63 * 1000000000
      ∧ apparentElapsed w s n ⌈/⌉ p = e ⌈/⌉ p := by
  have hround : (∀ k : Nat, s + p * k < n ↔ s + p * k < s + apparentElapsed w s n)
      ↔ apparentElapsed w s n ⌈/⌉ p = e ⌈/⌉ p := by
    rw [Periodic.ceilDiv_eq_iff hpos]
    refine forall_congr' fun k => ?_
    rw [he, add_lt_add_iff_left, add_lt_add_iff_left, ← Nat.cast_mul, Nat.cast_lt, Nat.cast_lt]
  have hrep : (∀ r, Periodic.IsNext s p n r → r < 2 ^ 63 * 1000000000)
      ↔ s + (p * (e ⌈/⌉ p) : Nat) < 2 ^ 63 * 1000000000 := by
    simp only [Periodic.isNext_iff_of_le hpos he, forall_eq]
  unfold ElapsedHarmless
  rw [hround, hrep, or_iff_right (by omega)]

/-- **The chosen time is the next release exactly when the misread elapsed time is harmless.** -/
theorem nextPeriod_iff (w : AbsWidth) {period : Timelength} (hs : start.IsNs s) (hn : now.IsNs n)
    (hp : period.IsNs p) (hpos : 0 < p) (hfits : Fits64 (n - s)) :
    ChoosesNext s p n (nextPeriod w period start now) ↔ ElapsedHarmless w s p n := by
  rcases lt_or_ge n s with hlt | hle
  · rw [nextPeriod_of_lt w hs hn hlt]
    refine ⟨fun _ => Or.inl hlt, fun _ => ⟨start, s, rfl, hs, ?_⟩⟩
    exact (Periodic.isNext_iff_of_le_start (by omega) hlt.le).mpr rfl
  obtain ⟨e, he⟩ : ∃ e : Nat, n = s + e := ⟨(n - s).toNat, by omega⟩
  have hhalf : 2 * e ≤ 2 ^ 64 := by
    omega
  have hzero : e = 0 → apparentElapsed w s n = 0 := by
    intro h
    rw [show n = s by omega, apparentElapsed_self]
  rw [elapsedHarmless_iff_of_le w hpos he]
  rcases nextPeriod_of_le w hs hn hp hfits hle with ⟨hmod, hnone⟩ | ⟨hmod, T, hT, hsome⟩
  · -- a period that is a multiple of `2 ^ 64` is divided by as zero
    rw [hnone]
    constructor
    · rintro ⟨_, _, hnot, -⟩
      exact absurd hnot (by simp)
    · rintro ⟨hshort | ⟨-, hne⟩, -⟩
      · rw [Nat.mod_eq_of_lt hshort] at hmod
        omega
      · exact absurd hmod hne
  · rw [hsome]
    rcases lt_or_ge p (2 ^ 64) with hshort | hlong
    · rw [Nat.mod_eq_of_lt hshort] at hT
      rw [choosesNext_add_iff hs hpos he, hT, Periodic.mod_round_up_eq_iff hpos hshort hhalf
        (apparentElapsed_lt w s n) hzero]
      constructor
      · rintro ⟨hk, hlt⟩
        rw [hk, Nat.mod_eq_of_lt (Periodic.round_up_lt hpos hshort hhalf)] at hlt
        exact ⟨Or.inl hshort, hlt, hk⟩
      · rintro ⟨-, hlt, hk⟩
        rw [hk, Nat.mod_eq_of_lt (Periodic.round_up_lt hpos hshort hhalf)]
        exact ⟨rfl, hlt⟩
    · constructor
      · intro h
        have hstart := choosesNext_of_long_period hs hlong he h
        obtain ⟨heq, hlt⟩ := (choosesNext_add_iff hs hpos he T).mp h
        rw [heq] at hlt
        rw [hzero hstart, hstart]
        subst hstart
        exact ⟨Or.inr ⟨by omega, hmod⟩, hlt, rfl⟩
      · rintro ⟨hshort | ⟨hstart, -⟩, hlt, -⟩
        · omega
        · have hezero : e = 0 := by omega
          subst hezero
          rw [hzero rfl, zero_ceilDiv, Nat.mul_zero, Nat.zero_mod] at hT
          rw [choosesNext_add_iff hs hpos he, hT]
          simpa using hlt

theorem qotInitTimerSleeperWith_expires (w : AbsWidth) (addr : Nat) (pid : Int32) (timer : QotTimer)
    (now : Timepoint) :
    (qotInitTimerSleeperWith w addr pid timer now).map (·.qotExpires)
      = nextPeriod w timer.period timer.startOffset now := by
  unfold qotInitTimerSleeperWith
  rw [Option.map_map]
  exact Option.map_id'

theorem waituntilNextperiod_wakeupTime (w : AbsWidth) (now start : Timepoint)
    (period : Timelength) :
    (waituntilNextperiod w true (some now) start period).wakeupTime
      = nextPeriod w period start now := by
  unfold waituntilNextperiod
  simp only [if_true]
  cases nextPeriod w period start now <;> rfl

/-- **Kernel and libraries choose the next release exactly when the misread elapsed time is
harmless**, for every start, every period above zero and every current time in whole nanoseconds,
with either `abs`. -/
theorem qot_next_release_iff (w : AbsWidth) {start now : Timepoint} {period : Timelength}
    {s n : Int} {p : Nat} (hs : start.IsNs s) (hn : now.IsNs n) (hp : period.IsNs p)
    (hpos : 0 < p) (hfits : Fits64 (n - s)) (addr : Nat) (pid count : Int32) :
    (ChoosesNext s p n ((qotInitTimerSleeperWith w addr pid ⟨start, period, count⟩ now).map
        (·.qotExpires)) ↔ ElapsedHarmless w s p n)
      ∧ (ChoosesNext s p n (C.timelineWaituntilNextperiod w true (some now) start
        period).wakeupTime ↔ ElapsedHarmless w s p n)
      ∧ (ChoosesNext s p n (Cpp.timelineWaituntilNextperiod w true (some now) start
        period).wakeupTime ↔ ElapsedHarmless w s p n) := by
  unfold C.timelineWaituntilNextperiod Cpp.timelineWaituntilNextperiod
  rw [qotInitTimerSleeperWith_expires, waituntilNextperiod_wakeupTime]
  have h := nextPeriod_iff w hs hn hp hpos hfits
  exact ⟨h, h, h⟩

/-- One and a half seconds after a start at a full second. -/
theorem elapsedHarmless_full_second : ElapsedHarmless .int 0 1000000000 1500000000 := by
  refine Or.inr ⟨Or.inl (by decide), ?_, fun k => ?_⟩
  · intro r hr
    rw [Periodic.isNext_iff_of_le (e := 1500000000) (by decide) (by decide)] at hr
    rw [hr]
    decide
  · rw [show apparentElapsed .int 0 1500000000 = 1500000000 by decide]
    omega

theorem qot_next_release_iff_full_second :
    Timepoint.IsNs ⟨0, 0⟩ 0 ∧ Timepoint.IsNs ⟨1, 500000000000000000⟩ 1500000000
      ∧ Timelength.IsNs ⟨1, 0⟩ 1000000000 ∧ Fits64 (1500000000 - 0)
      ∧ ChoosesNext 0 1000000000 1500000000 (C.timelineWaituntilNextperiod .int true
        (some ⟨1, 500000000000000000⟩) ⟨0, 0⟩ ⟨1, 0⟩).wakeupTime :=
  ⟨by decide, by decide, by decide, by decide,
    (qot_next_release_iff .int (by decide) (by decide) (by decide) (by decide) (by decide)
      0 0 0).2.1.mpr elapsedHarmless_full_second⟩

/-- **A release is skipped when the fraction of the start exceeds that of the current time.**
Started at 0.6 s with a period of 1 s, the next release after 1.5 s is at 1.6 s; the elapsed 0.9 s
are taken for 1.1 s, and all three functions choose 2.6 s. -/
theorem qot_next_release_skipped :
    Timepoint.IsNs ⟨0, 600000000000000000⟩ 600000000
      ∧ Timepoint.IsNs ⟨1, 500000000000000000⟩ 1500000000
      ∧ Timelength.IsNs ⟨1, 0⟩ 1000000000
      ∧ Periodic.IsNext 600000000 (1000000000 : Nat) 1500000000 1600000000
      ∧ (∀ w, (qotInitTimerSleeperWith w 0 0 ⟨⟨0, 600000000000000000⟩, ⟨1, 0⟩, 0⟩
          ⟨1, 500000000000000000⟩).map (·.qotExpires) = some ⟨2, 600000000000000000⟩)
      ∧ (∀ w, C.timelineWaituntilNextperiod w true (some ⟨1, 500000000000000000⟩)
          ⟨0, 600000000000000000⟩ ⟨1, 0⟩ = .wait ⟨2, 600000000000000000⟩)
      ∧ (∀ w, Cpp.timelineWaituntilNextperiod w true (some ⟨1, 500000000000000000⟩)
          ⟨0, 600000000000000000⟩ ⟨1, 0⟩ = .wait ⟨2, 600000000000000000⟩)
      ∧ ¬ Timepoint.IsNs ⟨2, 600000000000000000⟩ 1600000000 := by
  refine ⟨by decide, by decide, by decide, ?_, ?_, ?_, ?_, by decide⟩
  · exact (Periodic.isNext_iff_of_le (e := 900000000) (by decide) (by decide)).mpr (by decide)
  · intro w
    cases w <;> decide
  · intro w
    cases w <;> decide
  · intro w
    cases w <;> decide

end Qot
