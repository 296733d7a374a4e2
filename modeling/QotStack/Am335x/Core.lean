import QotStack.Am335x.Rate
import QotStack.Clock.Contract
import QotStack.Lib.Runs

/-!
# QotStack — the am335x core clock over whole runs (`qot_am335x.c`)

The core timer counts cycles in 32 bits and starts again at zero. The driver's time is what it was
at the last reading of the counter, and a fraction of a nanosecond; the next reading adds the cycles
since, by the masked difference of the two counter values, at the rate in force. Every reading is
one: of the core clock, of the PTP clock, at an overflow, and when the rate is changed.

The exact clock (`ExactClock`) counts in parts of `2 ^ -26` nanoseconds, without a width and without
rounding, and keeps account of the rounds of the counter that went by unseen between two readings.

* **`core_clock_exact`** — everything the driver reports is the exact clock's time in whole
  nanoseconds, less such rounds: nothing else is lost, in any order of readings, settings and
  changes of the rate;
* **`overflow_alone_loses_periods`** — the interrupt at an overflow comes too late to see every
  round.

The kernel's `timecounter` functions are modelled as the kernel has them. Captures are left out.
-/

namespace Qot

open MachineInt

/-! ## The kernel's time counter -/

/-- `timecounter_init`. -/
def timecounterInit (cycleNow startTstamp : UInt64) : Timecounter := ⟨cycleNow, startTstamp, 0⟩

/-- `timecounter_adjtime`. -/
def timecounterAdjtime (tc : Timecounter) (delta : Int64) : Timecounter :=
  { tc with nsec := tc.nsec + delta.toUInt64 }

/-- The counter when the core timer has made `count` cycles. -/
def counterAt (count : Nat) : UInt64 := UInt64.ofNat (count % 4294967296)

namespace Am335x

variable {φ : Type}

def qotAm335xGettime (p : Am335x φ) (cycleNow : UInt64) : Option (Timespec × Am335x φ) :=
  p.lock.map fun p =>
    let p := p.qotAm335xOverflow cycleNow
    (nsToTimespec p.tc.nsec.toInt64, p.unlock)

def qotAm335xSettime (p : Am335x φ) (ts : Timespec) (cycleNow : UInt64) : Option (Am335x φ) :=
  p.lock.map fun p =>
    { p with tc := timecounterInit cycleNow (timespecToNs ts).toUInt64 }.unlock

def qotAm335xAdjtime (p : Am335x φ) (delta : Int64) : Option (Am335x φ) :=
  p.lock.map fun p => { p with tc := timecounterAdjtime p.tc delta }.unlock

end Am335x

/-! ## The driver and its core timer -/

/-- What the driver reports: a core time, or a time of the PTP clock. -/
inductive CoreOut where
  | time (t : Timepoint)
  | timespec (ts : Timespec)

/-- The driver, and the number of cycles the core timer has made. -/
structure CoreWorld (φ : Type) where
  dev : Am335x φ
  count : Nat
  log : List CoreOut

/-- Cycles go by; the calls; the interrupt of an overflow of the core timer. -/
inductive CoreOp where
  | run (cycles : Nat)
  | readTime
  | gettime
  | settime (ts : Timespec)
  | adjtime (delta : Int64)
  | adjfreq (ppb : Int32) (h : ppb.toInt.natAbs ≤ am335xMaxAdj)
  | overflow

variable {φ : Type}

/-- The interrupt of an overflow, when the counter is at `cycleNow`. It calls nobody back. -/
def overflowIrq (cycleNow : UInt64) : Am335x.Irq φ :=
  ⟨⟨false, false, true⟩, cycleNow, ⟨cycleNow, fun _ t => t, ⟨0, 0⟩⟩,
    ⟨cycleNow, fun _ t => t, ⟨0, 0⟩⟩⟩

def coreStep (w : CoreWorld φ) : CoreOp → Option (CoreWorld φ)
  | .run cycles => some { w with count := w.count + cycles }
  | .readTime =>
    (w.dev.qotAm335xReadTime (counterAt w.count)).map fun (t, p) =>
      { w with dev := p, log := w.log ++ [.time t] }
  | .gettime =>
    (w.dev.qotAm335xGettime (counterAt w.count)).map fun (ts, p) =>
      { w with dev := p, log := w.log ++ [.timespec ts] }
  | .settime ts => (w.dev.qotAm335xSettime ts (counterAt w.count)).map fun p => { w with dev := p }
  | .adjtime delta => (w.dev.qotAm335xAdjtime delta).map fun p => { w with dev := p }
  | .adjfreq ppb h =>
    (w.dev.qotAm335xAdjfreq ppb h (counterAt w.count)).map fun p => { w with dev := p }
  | .overflow =>
    (w.dev.qotAm335xInterrupt .core (overflowIrq (counterAt w.count))).map fun p =>
      { w with dev := p }

/-! ## The exact clock -/

/-- The time in parts of `2 ^ -26` nanoseconds and what the readings have lost of it, how many parts
a cycle is, the cycles so far and since the last reading. -/
structure ExactClock where
  scaled : Int
  lost : Nat
  mult : Nat
  count : Nat
  sinceRead : Nat
  log : List CoreOut

/-- Whole nanoseconds, as the 64 bits of the driver have them. -/
def scaledNs (scaled : Int) : UInt64 :=
  UInt64.ofNat (scaled / 67108864 % 18446744073709551616).toNat

namespace ExactClock

/-- A reading does not see the rounds the counter has made. -/
def read (e : ExactClock) : ExactClock :=
  { e with lost := e.lost + (e.sinceRead - e.sinceRead % 4294967296) * e.mult, sinceRead := 0 }

/-- The time that is shown for `age` cycles ago. -/
def before (e : ExactClock) (age : Nat) : Int := e.scaled - e.lost - age * e.mult

def step (e : ExactClock) : CoreOp → Option ExactClock
  | .run cycles =>
    some { e with
      scaled := e.scaled + cycles * e.mult
      count := e.count + cycles
      sinceRead := e.sinceRead + cycles }
  | .readTime =>
    some { e.read with log := e.log ++ [.time (tpFromNsec (scaledNs (e.read.before 0)).toInt64)] }
  | .gettime =>
    some { e.read with
      log := e.log ++ [.timespec (nsToTimespec (scaledNs (e.read.before 0)).toInt64)] }
  | .settime ts =>
    some { e with scaled := (timespecToNs ts).toInt * 67108864, lost := 0, sinceRead := 0 }
  | .adjtime delta => some { e with scaled := e.scaled + delta.toInt * 67108864 }
  | .adjfreq ppb _ => some { e.read with mult := (adjfreqMult ppb).toNat }
  | .overflow => some e.read

end ExactClock

/-! ## One reading -/

theorem toNat_scaledNs (x : Int) :
    ((scaledNs x).toNat : Int) = x / 67108864 % 18446744073709551616 := by
  have hpos := Int.emod_nonneg (x / 67108864) (show (18446744073709551616 : Int) ≠ 0 by decide)
  have hlt := Int.emod_lt_of_pos (x / 67108864) (show (0 : Int) < 18446744073709551616 by decide)
  unfold scaledNs
  rw [UInt64.toNat_ofNat']
  show (((x / 67108864 % 18446744073709551616).toNat % 18446744073709551616 : Nat) : Int) = _
  omega

/-- A word of nanoseconds is determined by its residue. -/
theorem eq_scaledNs {u : UInt64} {x : Int}
    (h : (u.toNat : Int) % 18446744073709551616 = x / 67108864 % 18446744073709551616) :
    u = scaledNs x := by
  have hx := toNat_scaledNs x
  have hu := toNat_lt u
  apply UInt64.toNat_inj.mp
  omega

theorem toNat_low32 (u : UInt64) : (u &&& 0xffffffff).toNat = u.toNat % 4294967296 := by
  rw [UInt64.toNat_and]
  exact Nat.and_two_pow_sub_one_eq_mod u.toNat 32

theorem toNat_counterAt (count : Nat) : (counterAt count).toNat = count % 4294967296 := by
  unfold counterAt
  rw [UInt64.toNat_ofNat']
  show count % 4294967296 % 18446744073709551616 = _
  omega

/-- The masked difference of two counter values is the number of cycles between them, up to
rounds. -/
theorem toNat_cycleDelta (count cycles : Nat) :
    ((counterAt (count + cycles) - counterAt count) &&& 0xffffffff).toNat
      = cycles % 4294967296 := by
  have ha := toNat_counterAt (count + cycles)
  have hb := toNat_counterAt count
  rw [toNat_low32, UInt64.toNat_sub]
  omega

/-- A delta times the multiplier, with the fraction added, stays below 64 bits. -/
theorem toNat_scaledDelta {delta frac : UInt64} {mult : UInt32} (hdelta : delta.toNat < 4294967296)
    (hm : mult.toNat ≤ 2798998869) (hf : frac.toNat < 67108864) :
    (delta * mult.toUInt64 + frac).toNat = delta.toNat * mult.toNat + frac.toNat := by
  have hmult : mult.toUInt64.toNat = mult.toNat := rfl
  have hle : delta.toNat * mult.toNat ≤ 4294967295 * 2798998869 := Nat.mul_le_mul (by omega) hm
  have hprod : (delta * mult.toUInt64).toNat = delta.toNat * mult.toNat := by
    rw [toNat_mul_of_lt (by rw [hmult]; omega), hmult]
  rw [toNat_add_of_lt (by rw [hprod]; omega), hprod]

theorem toNat_shift26 (u : UInt64) : (u >>> (26 : UInt32).toUInt64).toNat = u.toNat / 67108864 := by
  rw [toNat_shiftRight (by decide)]
  rfl

theorem toNat_mask26 (u : UInt64) :
    (u &&& ((1 <<< (26 : UInt32).toUInt64) - 1)).toNat = u.toNat % 67108864 := by
  have hmask : ((1 : UInt64) <<< (26 : UInt32).toUInt64 - 1).toNat = 2 ^ 26 - 1 := by decide
  rw [UInt64.toNat_and, hmask]
  exact Nat.and_two_pow_sub_one_eq_mod u.toNat 26

/-- The time counter holds the time `x` of its last reading. -/
structure CounterTracks (tc : Timecounter) (x : Int) : Prop where
  nsec : tc.nsec = scaledNs x
  frac : (tc.frac.toNat : Int) = x % 67108864

namespace CounterTracks

variable {tc : Timecounter} {cc : Cyclecounter} {x : Int}

theorem frac_lt (h : CounterTracks tc x) : tc.frac.toNat < 67108864 := by
  have hlt := Int.emod_lt_of_pos x (show (0 : Int) < 67108864 by decide)
  have := h.frac
  omega

theorem init (cycleNow : UInt64) (ns : Int64) :
    CounterTracks (timecounterInit cycleNow ns.toUInt64) (ns.toInt * 67108864) where
  nsec := by
    apply eq_scaledNs
    have hns := toNat_toUInt64 ns
    show (ns.toUInt64.toNat : Int) % _ = _
    omega
  frac := by
    show ((0 : UInt64).toNat : Int) = _
    rw [UInt64.toNat_zero]
    omega

theorem adjtime (h : CounterTracks tc x) (delta : Int64) :
    CounterTracks (timecounterAdjtime tc delta) (x + delta.toInt * 67108864) where
  nsec := by
    apply eq_scaledNs
    have hns := toNat_scaledNs x
    have hdelta := toNat_toUInt64 delta
    show ((tc.nsec + delta.toUInt64).toNat : Int) % _ = _
    rw [h.nsec, UInt64.toNat_add]
    omega
  frac := by
    show (tc.frac.toNat : Int) = _
    rw [h.frac]
    omega

/-- **A reading.** It adds the cycles since the last one, less whole rounds of the counter. -/
theorem read (h : CounterTracks tc x) (hshift : cc.shift = 26) (hm : cc.mult.toNat ≤ 2798998869)
    {count cycles : Nat} (hlast : tc.cycleLast = counterAt count) :
    CounterTracks (timecounterRead tc cc (counterAt (count + cycles)))
      (x + ((cycles % 4294967296 * cc.mult.toNat : Nat) : Int)) := by
  have hdelta := toNat_cycleDelta count cycles
  have hsum := toNat_scaledDelta (hdelta ▸ Nat.mod_lt cycles (by decide)) hm h.frac_lt
  have hfrac := h.frac
  have hns := toNat_scaledNs x
  rw [hdelta] at hsum
  generalize cycles % 4294967296 * cc.mult.toNat = added at hsum ⊢
  constructor
  · apply eq_scaledNs
    show ((tc.nsec + (_ >>> cc.shift.toUInt64)).toNat : Int) % _ = _
    rw [hlast, hshift, h.nsec, UInt64.toNat_add, toNat_shift26, hsum]
    omega
  · show ((_ &&& ((1 <<< cc.shift.toUInt64) - 1) : UInt64).toNat : Int) = _
    rw [hlast, hshift, toNat_mask26, hsum]
    omega

end CounterTracks

/-! ## Whole runs -/

/-- The driver holds what the exact clock was at the last reading; the outputs so far are the
same. -/
structure FollowsExact (w : CoreWorld φ) (e : ExactClock) : Prop where
  tuned : w.dev.Tuned
  free : w.dev.locked = false
  core : w.dev.core.type = .pps
  mult : e.mult = w.dev.cc.mult.toNat
  count : e.count = w.count
  since : e.sinceRead ≤ w.count
  last : w.dev.tc.cycleLast = counterAt (w.count - e.sinceRead)
  tracks : CounterTracks w.dev.tc (e.before e.sinceRead)
  log : w.log = e.log

namespace FollowsExact

variable {w : CoreWorld φ} {e : ExactClock}

section
variable (h : FollowsExact w e)
include h

/-- Where a reading finds the counter. -/
theorem counted :
    CounterTracks (timecounterRead w.dev.tc w.dev.cc (counterAt w.count)) (e.read.before 0) := by
  have hread : CounterTracks _ (_ + ((e.sinceRead % 4294967296 * _ : Nat) : Int)) :=
    h.tracks.read h.tuned.shift h.tuned.mult_range.2 h.last
  have hseen : e.before e.sinceRead + ((e.sinceRead % 4294967296 * e.mult : Nat) : Int)
      = e.read.before 0 := by
    have hle : e.sinceRead % 4294967296 ≤ e.sinceRead := Nat.mod_le _ _
    simp only [ExactClock.before, ExactClock.read]
    generalize e.sinceRead % 4294967296 = seen at hle
    push_cast [hle]
    ring
  rw [Nat.sub_add_cancel h.since, ← h.mult, hseen] at hread
  exact hread

/-- After a reading, whatever it is for. -/
theorem of_read {p : Am335x φ} (hp : p.Tuned) (hfree : p.locked = false)
    (hcore : p.core = w.dev.core)
    (htc : p.tc = timecounterRead w.dev.tc w.dev.cc (counterAt w.count)) (out : List CoreOut) :
    FollowsExact ⟨p, w.count, w.log ++ out⟩
      { e.read with mult := p.cc.mult.toNat, log := e.log ++ out } where
  tuned := hp
  free := hfree
  core := hcore ▸ h.core
  mult := rfl
  count := h.count
  since := Nat.zero_le _
  last := by
    show p.tc.cycleLast = _
    rw [htc]
    rfl
  tracks := by
    have hcounted := h.counted
    simp only [ExactClock.before, ExactClock.read, Nat.cast_zero, Int.zero_mul] at hcounted ⊢
    rw [htc]
    exact hcounted
  log := congrArg (· ++ out) h.log

/-- `of_read` when the rate stays and the driver is left as it is. -/
theorem read_back (out : List CoreOut) :
    FollowsExact
      ⟨{ w.dev with tc := timecounterRead w.dev.tc w.dev.cc (counterAt w.count), locked := false },
        w.count, w.log ++ out⟩
      { e.read with log := e.log ++ out } := by
  have hread := h.of_read
    (p := { w.dev with
      tc := timecounterRead w.dev.tc w.dev.cc (counterAt w.count), locked := false })
    ⟨h.tuned.shift, h.tuned.mult, (h.tuned.overflow _).frac⟩ rfl rfl rfl out
  rw [show (w.dev.cc.mult.toNat : Nat) = e.mult from h.mult.symm] at hread
  exact hread

theorem run (cycles : Nat) : FollowsExact { w with count := w.count + cycles }
      { e with
        scaled := e.scaled + cycles * e.mult
        count := e.count + cycles
        sinceRead := e.sinceRead + cycles } :=
  { h with
    count := congrArg (· + cycles) h.count
    since := Nat.add_le_add_right h.since cycles
    last := by
      show _ = counterAt (w.count + cycles - (e.sinceRead + cycles))
      rw [Nat.add_sub_add_right]
      exact h.last
    tracks := by
      have hsame : e.scaled + cycles * e.mult - e.lost - ((e.sinceRead + cycles : Nat) : Int)
        * e.mult
          = e.before e.sinceRead := by
        simp only [ExactClock.before]
        push_cast
        ring
      show CounterTracks _ (e.scaled + cycles * e.mult - e.lost
        - ((e.sinceRead + cycles : Nat) : Int) * e.mult)
      rw [hsame]
      exact h.tracks }

theorem settime (ts : Timespec) :
    FollowsExact
      { w with
        dev := { w.dev with
          tc := timecounterInit (counterAt w.count) (timespecToNs ts).toUInt64
          locked := false } }
      { e with scaled := (timespecToNs ts).toInt * 67108864, lost := 0, sinceRead := 0 } :=
  { h with
    tuned := ⟨h.tuned.shift, h.tuned.mult, by show (0 : UInt64).toNat < 67108864; decide⟩
    free := rfl
    since := Nat.zero_le _
    last := rfl
    tracks := by
      have hinit := CounterTracks.init (counterAt w.count) (timespecToNs ts)
      simpa [ExactClock.before] using hinit }

theorem adjtime (delta : Int64) :
    FollowsExact
      { w with dev := { w.dev with tc := timecounterAdjtime w.dev.tc delta, locked := false } }
      { e with scaled := e.scaled + delta.toInt * 67108864 } :=
  { h with
    tuned := ⟨h.tuned.shift, h.tuned.mult, h.tuned.frac⟩
    free := rfl
    tracks := by
      have hshift := h.tracks.adjtime delta
      simp only [ExactClock.before] at hshift ⊢
      rw [add_sub_right_comm, add_sub_right_comm]
      exact hshift }

/-- The exact clock takes no step that the driver does not follow. -/
theorem step {op : CoreOp} {e' : ExactClock} (he : e.step op = some e') :
    ∃ w', coreStep w op = some w' ∧ FollowsExact w' e' := by
  have hlock := Am335x.lock_of_free h.free
  cases op with
  | run cycles =>
    cases he
    exact ⟨_, rfl, h.run cycles⟩
  | readTime =>
    cases he
    refine ⟨_, ?_, h.read_back [.time (tpFromNsec (scaledNs (e.read.before 0)).toInt64)]⟩
    rw [← h.counted.nsec]
    simp only [coreStep, Am335x.qotAm335xReadTime, hlock, Option.map_some]
    rfl
  | gettime =>
    cases he
    refine ⟨_, ?_, h.read_back [.timespec (nsToTimespec (scaledNs (e.read.before 0)).toInt64)]⟩
    rw [← h.counted.nsec]
    simp only [coreStep, Am335x.qotAm335xGettime, hlock, Option.map_some]
    rfl
  | settime ts =>
    cases he
    refine ⟨_, ?_, h.settime ts⟩
    simp only [coreStep, Am335x.qotAm335xSettime, hlock, Option.map_some]
    rfl
  | adjtime delta =>
    cases he
    refine ⟨_, ?_, h.adjtime delta⟩
    simp only [coreStep, Am335x.qotAm335xAdjtime, hlock, Option.map_some]
    rfl
  | adjfreq ppb hppb =>
    cases he
    refine ⟨_, ?_, List.append_nil e.log ▸ h.of_read
      (p := { w.dev with
        tc := timecounterRead w.dev.tc w.dev.cc (counterAt w.count)
        cc := ⟨adjfreqMult ppb, w.dev.cc.shift, adjfreqMult_ne hppb⟩
        locked := false })
      ⟨h.tuned.shift, ⟨ppb, hppb, rfl⟩, (h.tuned.overflow _).frac⟩ rfl rfl rfl []⟩
    rw [List.append_nil]
    simp only [coreStep, Am335x.qotAm335xAdjfreq, hlock, Option.map_some]
    rfl
  | overflow =>
    cases he
    have hread := h.read_back []
    rw [List.append_nil, List.append_nil] at hread
    refine ⟨_, ?_, hread⟩
    have htype : (Am335x.channel { w.dev with locked := true } .core).type = .pps := h.core
    simp only [coreStep, Am335x.qotAm335xInterrupt, hlock, Option.bind_some, Am335x.handleIrq,
      htype]
    rfl

end

end FollowsExact

theorem ccMult_ne : ccMult ≠ 0 := by decide

/-- The driver when its core timer, at `count`, has been given the time `ns`. -/
def CoreWorld.probed (timer : Option OmapDmTimer) (pins : Nat → Am335xChannel) (ns : Int64)
    (count : Nat) :
    CoreWorld φ :=
  ⟨.probed ⟨timer, .pps, ⟨0, 0⟩, ⟨0, 0⟩⟩ pins (timecounterInit (counterAt count) ns.toUInt64)
    ⟨ccMult, 26, ccMult_ne⟩, count, []⟩

def ExactClock.start (ns : Int64) (count : Nat) : ExactClock :=
  ⟨ns.toInt * 67108864, 0, 2796202667, count, 0, []⟩

theorem follows_probed (timer : Option OmapDmTimer) (pins : Nat → Am335xChannel) (ns : Int64)
    (count : Nat) :
    FollowsExact (CoreWorld.probed (φ := φ) timer pins ns count) (.start ns count) where
  tuned := Am335x.tuned_probed _ pins _ _
  free := rfl
  core := rfl
  mult := rfl
  count := rfl
  since := Nat.zero_le _
  last := rfl
  tracks := by
    have hinit := CounterTracks.init (counterAt count) ns
    simp only [ExactClock.before, ExactClock.start, Nat.cast_zero, Int.zero_mul, Int.sub_zero]
    exact hinit
  log := rfl

theorem exactClock_total (e : ExactClock) (op : CoreOp) : ∃ e', e.step op = some e' := by
  cases op <;> exact ⟨_, rfl⟩

/-- The driver follows the exact clock to where a run ends. -/
theorem follows_exec (timer : Option OmapDmTimer) (pins : Nat → Am335xChannel) (ns : Int64)
    (count : Nat) (ops : List CoreOp) :
    ∃ w e, Runs.exec coreStep (CoreWorld.probed (φ := φ) timer pins ns count) ops = some w
      ∧ Runs.exec ExactClock.step (.start ns count) ops = some e ∧ FollowsExact w e := by
  obtain ⟨e, he⟩ := Runs.exec_total exactClock_total (.start ns count) ops
  obtain ⟨w, hw, hfollows⟩ :=
    Runs.exec_simulation (fun _ _ _ _ hfollows hstep => hfollows.step hstep)
    (follows_probed (φ := φ) timer pins ns count) he
  exact ⟨w, e, hw, he, hfollows⟩

/-- Nothing is lost as long as the counter does not go round between two readings. -/
theorem lost_exec {e e' : ExactClock} {ops : List CoreOp} (hlost : e.lost = 0)
    (hseen : Runs.AllStates ExactClock.step (·.sinceRead < 4294967296) e ops)
    (he : Runs.exec ExactClock.step e ops = some e') : e'.lost = 0 := by
  induction ops generalizing e with
  | nil =>
    cases he
    exact hlost
  | cons op ops ih =>
    obtain ⟨e₁, h₁, h₂⟩ := Option.bind_eq_some_iff.mp he
    apply ih _ (hseen.2 e₁ h₁) h₂
    have hread : e.read.lost = 0 := by
      simp only [ExactClock.read, hlost, Nat.mod_eq_of_lt hseen.head, Nat.sub_self, Nat.zero_mul]
    cases op with
    | run | adjtime =>
      cases h₁
      exact hlost
    | settime =>
      cases h₁
      rfl
    | readTime | gettime | adjfreq | overflow =>
      cases h₁
      exact hread

/-- **The core clock is exact.** From the set-up on, in any order of readings, of overflows, of
changes of the rate and of settings and shifts of the time, everything the driver reports is what
the exact clock shows; and nothing is lost there if never as many as `2 ^ 32` cycles go by without a
reading. -/
theorem core_clock_exact (timer : Option OmapDmTimer) (pins : Nat → Am335xChannel) (ns : Int64)
    (count : Nat) (ops : List CoreOp) :
    ∃ w e, Runs.exec coreStep (CoreWorld.probed (φ := φ) timer pins ns count) ops = some w
      ∧ Runs.exec ExactClock.step (.start ns count) ops = some e ∧ w.log = e.log
      ∧ (Runs.AllStates ExactClock.step (·.sinceRead < 4294967296) (.start ns count) ops →
        e.lost = 0) := by
  obtain ⟨w, e, hw, he, hfollows⟩ := follows_exec timer pins ns count ops
  exact ⟨w, e, hw, he, hfollows.log, fun hseen => lost_exec rfl hseen he⟩

def noPins : Nat → Am335xChannel := fun _ => ⟨none, .extts, ⟨0, 0⟩, ⟨0, 0⟩⟩

/-- A second, a faster rate for another one, and a correction by a microsecond. -/
def tunedRun : List CoreOp :=
  [.run 24000000, .readTime, .adjfreq 1000 (by decide), .run 24000000, .adjtime (-1000), .gettime]

theorem core_clock_exact_tuned :
    ∃ w e, Runs.exec coreStep (CoreWorld.probed (φ := Unit) none noPins 0 0) tunedRun = some w
      ∧ Runs.exec ExactClock.step (.start 0 0) tunedRun = some e ∧ w.log = e.log ∧ e.lost = 0 := by
  obtain ⟨w, e, hw, he, hlog, hlost⟩ := core_clock_exact (φ := Unit) none noPins 0 0 tunedRun
  refine ⟨w, e, hw, he, hlog, hlost ?_⟩
  simp [tunedRun, Runs.AllStates, ExactClock.step, ExactClock.start, ExactClock.read]

/-! ## Overflows alone

The interrupt comes when the counter has started again, some cycles late. Two of them are `2 ^ 32`
cycles apart, more or less the difference of the two delays: unless the second delay is the shorter
one, the masked difference has lost a whole round. -/

/-- Readings at overflows only, that come so many cycles late; `last` cycles into the round there
was the last reading. -/
def overflowRun (last : Nat) : List Nat → List CoreOp
  | [] => []
  | late :: rest => .run (4294967296 + late - last) :: .overflow :: overflowRun late rest

/-- How often the delay does not get shorter. -/
def ascents (last : Nat) : List Nat → Nat
  | [] => 0
  | late :: rest => (if last ≤ late then 1 else 0) + ascents late rest

/-- A delay can get shorter only as often as it has cycles to lose. -/
theorem length_le_ascents {bound : Nat} {lates : List Nat} (hbound : ∀ late ∈ lates, late ≤ bound)
    (last : Nat) : lates.length ≤ last + ascents last lates * (bound + 1) := by
  induction lates generalizing last with
  | nil => exact Nat.zero_le _
  | cons late rest ih =>
    rw [List.forall_mem_cons] at hbound
    have hrest := ih hbound.2 late
    simp only [ascents, List.length_cons]
    by_cases hle : last ≤ late
    · rw [if_pos hle, Nat.add_mul]
      omega
    · rw [if_neg hle, Nat.zero_add]
      omega

/-- Each overflow that is no less late than the one before loses a round. -/
theorem exec_overflowRun {last : Nat} {lates : List Nat} {e e' : ExactClock}
    (hread : e.sinceRead = 0)
    (hlast : last < 4294967296) (hlates : ∀ late ∈ lates, late < 4294967296)
    (he : Runs.exec ExactClock.step e (overflowRun last lates) = some e') :
    e'.sinceRead = 0 ∧ e.count ≤ e'.count
      ∧ e'.scaled = e.scaled + ((e'.count - e.count : Nat) : Int) * e.mult
      ∧ e'.lost = e.lost + 4294967296 * e.mult * ascents last lates := by
  induction lates generalizing e last with
  | nil =>
    cases he
    simp [hread, ascents]
  | cons late rest ih =>
    rw [List.forall_mem_cons] at hlates
    obtain ⟨hsince, hcount, hscaled, hlost⟩ := ih (e := ExactClock.read { e with
      scaled := e.scaled + (4294967296 + late - last : Nat) * e.mult
      count := e.count + (4294967296 + late - last)
      sinceRead := e.sinceRead + (4294967296 + late - last) }) rfl hlates.1 hlates.2 he
    have hround : 4294967296 + late - last - (4294967296 + late - last) % 4294967296
        = 4294967296 * if last ≤ late then 1 else 0 := by
      split <;> omega
    simp only [ExactClock.read, hread, Nat.zero_add, hround] at hcount hscaled hlost
    refine ⟨hsince, by omega, ?_, ?_⟩
    · rw [hscaled, show e'.count - e.count
          = (4294967296 + late - last) + (e'.count - (e.count + (4294967296 + late - last)))
            by omega]
      push_cast
      ring
    · rw [hlost, ascents]
      ring

/-- **Overflows alone do not keep the time.** Let the core timer's interrupts be the only readings,
each at most `bound` cycles late. The driver is behind by a round of the counter, 179 seconds, for
each of them that is no less late than the one before; and that is at least one in `bound + 1`. -/
theorem overflow_alone_loses_periods (timer : Option OmapDmTimer) (pins : Nat → Am335xChannel)
    (ns : Int64) (count bound : Nat) (lates : List Nat) (hbound : ∀ late ∈ lates, late ≤ bound)
    (hround : bound < 4294967296) :
    ∃ w lost, Runs.exec coreStep (CoreWorld.probed (φ := φ) timer pins ns count)
          (overflowRun (count % 4294967296) lates) = some w
      ∧ lost = ascents (count % 4294967296) lates ∧ count ≤ w.count
      ∧ w.dev.tc.nsec = scaledNs (ns.toInt * 67108864
          + ((w.count - count : Nat) - 4294967296 * lost : Int) * 2796202667)
      ∧ lates.length ≤ count % 4294967296 + lost * (bound + 1) := by
  obtain ⟨w, e, hw, he, hfollows⟩ :=
    follows_exec timer pins ns count (overflowRun (count % 4294967296) lates)
  obtain ⟨hsince, hcount, hscaled, hlost⟩ := exec_overflowRun rfl (Nat.mod_lt count (by decide))
    (fun late hlate => Nat.lt_of_le_of_lt (hbound late hlate) hround) he
  rw [hfollows.count] at hcount hscaled
  refine ⟨w, _, hw, rfl, hcount, ?_, length_le_ascents hbound _⟩
  rw [hfollows.tracks.nsec]
  simp only [ExactClock.before, hsince, hscaled, hlost, ExactClock.start]
  congr 1
  push_cast
  ring

theorem overflow_alone_loses_periods_twice :
    ∃ w lost, Runs.exec coreStep (CoreWorld.probed (φ := Unit) none noPins 0 20)
          (overflowRun (20 % 4294967296) [100, 100, 50]) = some w
      ∧ lost = ascents (20 % 4294967296) [100, 100, 50] ∧ 20 ≤ w.count
      ∧ w.dev.tc.nsec = scaledNs ((0 : Int64).toInt * 67108864
          + ((w.count - 20 : Nat) - 4294967296 * lost : Int) * 2796202667)
      ∧ [100, 100, 50].length ≤ 20 % 4294967296 + lost * (100 + 1) :=
  overflow_alone_loses_periods none noPins 0 20 100 [100, 100, 50] (by decide) (by decide)

end Qot
