import QotStack.Lib.RingBuffer
import QotStack.Sync.Uncertainty
import Mathlib.Algebra.Order.BigOperators.Group.List

/-!
# QotStack — the windows of the uncertainty calculation (`SyncUncertainty.cpp`)

Each point of the clock statistics goes into two windows, one of `M` drifts and one of `N` offsets,
and the bounds are calculated from what the windows hold. The windows are ring buffers, and hold
what they should.

Bounds are to be published once there are enough samples of both kinds. Two things stand between
that and the code:

* the test for too few samples asks that *both* windows are short, so that the shorter window
  alone decides;
* the calculation throws outside the domain of the distributions it uses (`ProbabilityLib.cpp`):
  one degree of freedom at least, probabilities strictly between `0` and `1`, and a normal
  distribution with a deviation, which takes two different drifts in the window
  (`margins_isSome_iff`).

`uncertainty_windows_iff` puts them together. The synchronisation service sets both sizes to `50`.

The variances are calculated exactly here; quantiles and roots are arbitrary up to their signs.
-/

namespace Qot

open RingBuffer

structure UncertaintyParams where
  M : Nat
  N : Nat
  pds : ℚ
  pdv : ℚ
  pos : ℚ
  pov : ℚ
  deriving DecidableEq, Repr

/-- What the constructors and the synchronisation service start from. -/
def UncertaintyParams.default : UncertaintyParams :=
  ⟨50, 50, 999999 / 1000000, 999999 / 1000000, 999999 / 1000000, 999999 / 1000000⟩

/-! ## The variances -/

/-- The population variance: the mean of the squares of the distances from the mean. -/
def getPopulationVarianceDouble (samples : List ℚ) : ℚ :=
  let mean := samples.sum / samples.length
  (samples.map fun x => (x - mean) * (x - mean)).sum / samples.length

def getPopulationVariance (samples : List Int64) : ℚ :=
  getPopulationVarianceDouble (samples.map fun x => (x.toInt : ℚ))

theorem sum_eq_of_forall_eq {samples : List ℚ} {c : ℚ} (h : ∀ x ∈ samples, x = c) :
    samples.sum = samples.length * c := by
  rw [List.eq_replicate_of_mem h, List.sum_replicate, List.length_replicate, nsmul_eq_mul]

/-- There is a variance exactly if two of the samples differ. -/
theorem getPopulationVarianceDouble_pos_iff (samples : List ℚ) :
    0 < getPopulationVarianceDouble samples ↔ ∃ x ∈ samples, ∃ y ∈ samples, x ≠ y := by
  simp only [getPopulationVarianceDouble]
  constructor
  · intro hpos
    by_contra hsame
    push Not at hsame
    cases samples with
    | nil => simp at hpos
    | cons c rest =>
      -- all samples are the first one, and so is the mean
      have hall : ∀ x ∈ c :: rest, x = c := fun x hx => hsame x hx c List.mem_cons_self
      have hlen : ((c :: rest).length : ℚ) ≠ 0 := Nat.cast_ne_zero.mpr (Nat.succ_ne_zero _)
      rw [sum_eq_of_forall_eq hall, mul_div_cancel_left₀ c hlen,
        List.sum_eq_zero fun v hv => by
          obtain ⟨x, hx, rfl⟩ := List.mem_map.mp hv
          rw [hall x hx, sub_self, mul_zero], zero_div] at hpos
      exact absurd hpos (lt_irrefl 0)
  · rintro ⟨x, hx, y, hy, hne⟩
    refine div_pos ?_ (Nat.cast_pos.mpr (List.length_pos_of_mem hx))
    generalize samples.sum / samples.length = mean
    have hnonneg : ∀ v ∈ samples.map fun x => (x - mean) * (x - mean), 0 ≤ v := by
      intro v hv
      obtain ⟨z, -, rfl⟩ := List.mem_map.mp hv
      exact mul_self_nonneg _
    refine lt_of_le_of_ne (List.sum_nonneg hnonneg) fun hzero => hne ?_
    have hmean : ∀ z ∈ samples, z = mean := fun z hz => sub_eq_zero.mp (mul_self_eq_zero.mp
      (List.all_zero_of_le_zero_le_of_sum_eq_zero hnonneg hzero.symm (List.mem_map_of_mem hz)))
    rw [hmean x hx, hmean y hy]

/-! ## The margins -/

/-- What the calculation takes from the libraries of distributions and of functions: the quantiles
of a chi squared distribution with some degrees of freedom and of the standard normal one, the
inverse of the error function, and the square root. -/
structure Quantiles where
  chiSquared : Nat → ℚ → ℚ
  normal : ℚ → ℚ
  erfInv : ℚ → ℚ
  sqrt : ℚ → ℚ
  sqrt_nonneg : ∀ x, 0 ≤ sqrt x
  chiSquared_pos : ∀ {k : Nat} {p : ℚ}, 0 < k → 0 < p → p < 1 → 0 < chiSquared k p
  sqrt_pos_iff : ∀ x, 0 < sqrt x ↔ 0 < x

/-- A probability of which both quantiles are finite. -/
abbrev InsideUnit (p : ℚ) : Prop := 0 < p ∧ p < 1

section Margins

variable (q : Quantiles)

/-- `none` is the exception of the distribution's constructor or of its quantile. -/
def upperConfidenceLimitOnStdDeviation (sd : ℚ) (n : Nat) (pds : ℚ) : Option ℚ :=
  if 0 < n - 1 ∧ InsideUnit pds then
    some ((n - 1 : Nat) * sd * sd / q.chiSquared (n - 1) (1 - pds))
  else none

/-- A normal distribution with no deviation is not constructed. -/
def upperConfidenceLimitGaussian (sd pdv : ℚ) : Option ℚ :=
  if 0 < sd ∧ InsideUnit pdv then some (sd * q.normal pdv) else none

/-- The bounds on the variance of the drift and on that of the offset. -/
def calcVarBounds (config : UncertaintyParams) (drifts : List ℚ) (offsets : List Int64) :
    Option (ℚ × ℚ) := do
  let driftBound ← upperConfidenceLimitOnStdDeviation q
    (q.sqrt (getPopulationVarianceDouble drifts)) config.M config.pds
  let offsetBound ← upperConfidenceLimitOnStdDeviation q
    (q.sqrt (getPopulationVariance offsets)) config.N config.pos
  return (driftBound, offsetBound)

/-- The right predictor and the right margin, unless something throws. -/
def margins (config : UncertaintyParams) (drifts : List ℚ) (offsets : List Int64) :
    Option (ℚ × ℚ) := do
  let (driftBound, offsetBound) ← calcVarBounds q config drifts offsets
  let limit ← upperConfidenceLimitGaussian q (q.sqrt driftBound) config.pdv
  return (2 * limit / 3, q.sqrt 2 * q.erfInv config.pov * q.sqrt offsetBound)

end Margins

/-- The parameters and drifts for which nothing throws. -/
structure MarginsDefined (config : UncertaintyParams) (drifts : List ℚ) : Prop where
  drift_freedom : 2 ≤ config.M
  offset_freedom : 2 ≤ config.N
  pds : InsideUnit config.pds
  pos : InsideUnit config.pos
  pdv : InsideUnit config.pdv
  deviation : ∃ x ∈ drifts, ∃ y ∈ drifts, x ≠ y

theorem Quantiles.sqrt_ne_zero_iff (q : Quantiles) (x : ℚ) : q.sqrt x ≠ 0 ↔ 0 < x := by
  rw [← q.sqrt_pos_iff, lt_iff_le_and_ne]
  exact ⟨fun h => ⟨q.sqrt_nonneg x, h.symm⟩, fun h => h.2.symm⟩

/-- The bound on a variance is positive exactly if the variance is. -/
theorem Quantiles.bound_pos_iff (q : Quantiles) {n : Nat} {pds : ℚ} (variance : ℚ)
    (hn : 0 < n - 1) (hpds : InsideUnit pds) :
    0 < (n - 1 : Nat) * q.sqrt variance * q.sqrt variance / q.chiSquared (n - 1) (1 - pds)
      ↔ 0 < variance := by
  have hchi := q.chiSquared_pos hn (sub_pos.mpr hpds.2) (by linarith [hpds.1])
  rw [div_pos_iff_of_pos_right hchi, mul_assoc, mul_pos_iff_of_pos_left (Nat.cast_pos.mpr hn),
    mul_self_pos, q.sqrt_ne_zero_iff]

/-- **The calculation gives margins exactly inside the domain of its distributions.** -/
theorem margins_isSome_iff (q : Quantiles) (config : UncertaintyParams) (drifts : List ℚ)
    (offsets : List Int64) :
    (margins q config drifts offsets).isSome ↔ MarginsDefined config drifts := by
  have hdeviation := getPopulationVarianceDouble_pos_iff drifts
  unfold margins calcVarBounds upperConfidenceLimitOnStdDeviation upperConfidenceLimitGaussian
  by_cases hdrift : 0 < config.M - 1 ∧ InsideUnit config.pds
  · by_cases hoffset : 0 < config.N - 1 ∧ InsideUnit config.pos
    · have hbound := q.bound_pos_iff (getPopulationVarianceDouble drifts) hdrift.1 hdrift.2
      rw [← q.sqrt_pos_iff, hdeviation] at hbound
      simp only [if_pos hdrift, if_pos hoffset, Option.bind_eq_bind, Option.bind_some,
        Option.pure_def, hbound]
      split
      · next hlast =>
        simp only [Option.bind_some, Option.isSome_some, true_iff]
        exact ⟨by omega, by omega, hdrift.2, hoffset.2, hlast.2, hlast.1⟩
      · next hlast =>
        simp only [Option.bind_none, Option.isSome_none, Bool.false_eq_true, false_iff]
        exact fun h => hlast ⟨h.deviation, h.pdv⟩
    · simp only [if_pos hdrift, if_neg hoffset, Option.bind_eq_bind, Option.bind_some,
        Option.bind_none, Option.isSome_none, Bool.false_eq_true, false_iff]
      exact fun h => hoffset ⟨by have := h.offset_freedom; omega, h.pos⟩
  · simp only [if_neg hdrift, Option.bind_eq_bind, Option.bind_none, Option.isSome_none,
      Bool.false_eq_true, false_iff]
    exact fun h => hdrift ⟨by have := h.drift_freedom; omega, h.pds⟩

/-! ## The windows -/

/-- The samples with their pointers. -/
structure SyncUncertainty where
  config : UncertaintyParams
  drifts : Buffer ℚ
  offsets : Buffer Int64

namespace SyncUncertainty

def new (config : UncertaintyParams) : SyncUncertainty := ⟨config, Buffer.empty, Buffer.empty⟩

def addSample (s : SyncUncertainty) (offset : Int64) (drift : ℚ) : SyncUncertainty :=
  { s with
    drifts := s.drifts.add s.config.M drift
    offsets := s.offsets.add s.config.N offset }

/-- How a call of `CalculateBounds` ends. -/
inductive Outcome where
  | insufficient
  | published (bounds : QotBounds)
  | thrown
  deriving DecidableEq

/-- One call: how it ends, and the state afterwards. The sample is added before anything can
throw. -/
def calculateBounds (q : Quantiles) (s : SyncUncertainty) (offset : Int64) (drift : ℚ) :
    Outcome × SyncUncertainty :=
  let s := s.addSample offset drift
  if s.drifts.cells.length < s.config.M ∧ s.offsets.cells.length < s.config.N then
    (.insufficient, s)
  else
    match margins q s.config s.drifts.cells s.offsets.cells with
    | none => (.thrown, s)
    | some (rightPredictor, rightMargin) =>
      (.published (Qot.calculateBounds rightPredictor rightMargin), s)

/-- The state after the calls with some samples. -/
def feed (q : Quantiles) (config : UncertaintyParams) (samples : List (Int64 × ℚ)) :
    SyncUncertainty :=
  samples.foldl (fun s x => (s.calculateBounds q x.1 x.2).2) (new config)

/-- The windows hold the last samples of a sequence. -/
structure WindowsHold (s : SyncUncertainty) (samples : List (Int64 × ℚ)) : Prop where
  drifts : Holds s.config.M (samples.map (·.2)) s.drifts
  offsets : Holds s.config.N (samples.map (·.1)) s.offsets

theorem calculateBounds_state (q : Quantiles) (s : SyncUncertainty) (offset : Int64) (drift : ℚ) :
    (s.calculateBounds q offset drift).2 = s.addSample offset drift := by
  simp only [calculateBounds]
  split
  · rfl
  · split <;> rfl

theorem windowsHold_addSample {s : SyncUncertainty} {samples : List (Int64 × ℚ)}
    (hM : 1 ≤ s.config.M) (hN : 1 ≤ s.config.N) (h : s.WindowsHold samples) (x : Int64 × ℚ) :
    (s.addSample x.1 x.2).WindowsHold (samples ++ [x]) := by
  refine ⟨?_, ?_⟩
  · rw [List.map_append]
    exact holds_add hM h.drifts x.2
  · rw [List.map_append]
    exact holds_add hN h.offsets x.1

theorem feed_append (q : Quantiles) (config : UncertaintyParams) (samples : List (Int64 × ℚ))
    (x : Int64 × ℚ) :
    feed q config (samples ++ [x]) = (feed q config samples).addSample x.1 x.2 := by
  rw [feed, List.foldl_append]
  exact calculateBounds_state q _ x.1 x.2

theorem feed_config (q : Quantiles) (config : UncertaintyParams) (samples : List (Int64 × ℚ)) :
    (feed q config samples).config = config := by
  induction samples using List.reverseRecOn with
  | nil => rfl
  | append_singleton samples x ih =>
    rw [feed_append]
    exact ih

variable {config : UncertaintyParams}

theorem windowsHold_feed (q : Quantiles) (hM : 1 ≤ config.M) (hN : 1 ≤ config.N)
    (samples : List (Int64 × ℚ)) : (feed q config samples).WindowsHold samples := by
  induction samples using List.reverseRecOn with
  | nil => exact ⟨holds_addAll hM [], holds_addAll hN []⟩
  | append_singleton samples x ih =>
    rw [feed_append]
    exact windowsHold_addSample (by rwa [feed_config]) (by rwa [feed_config]) ih x

/-! ## Publication -/

/-- The call with the sample `x`, after those with `samples`, publishes a bound. -/
def PublishesAt (q : Quantiles) (config : UncertaintyParams) (samples : List (Int64 × ℚ))
    (x : Int64 × ℚ) : Prop :=
  ∃ bounds, ((feed q config samples).calculateBounds q x.1 x.2).1 = .published bounds

/-- The last `M` drifts, the new one among them. -/
def driftWindow (config : UncertaintyParams) (samples : List (Int64 × ℚ)) (x : Int64 × ℚ) :
    List ℚ :=
  ((samples ++ [x]).map (·.2)).rtake config.M

theorem marginsDefined_perm {drifts drifts' : List ℚ} (hperm : drifts.Perm drifts') :
    MarginsDefined config drifts ↔ MarginsDefined config drifts' := by
  constructor <;> rintro ⟨hM, hN, hpds, hpos, hpdv, x, hx, y, hy, hne⟩
  · exact ⟨hM, hN, hpds, hpos, hpdv, x, hperm.mem_iff.mp hx, y, hperm.mem_iff.mp hy, hne⟩
  · exact ⟨hM, hN, hpds, hpos, hpdv, x, hperm.mem_iff.mpr hx, y, hperm.mem_iff.mpr hy, hne⟩

/-- The shorter of the windows decides, where the margins are defined. -/
theorem publishesAt_iff (q : Quantiles) (hM : 1 ≤ config.M) (hN : 1 ≤ config.N)
    (samples : List (Int64 × ℚ)) (x : Int64 × ℚ) :
    PublishesAt q config samples x
      ↔ (config.M ≤ samples.length + 1 ∨ config.N ≤ samples.length + 1)
        ∧ MarginsDefined config (driftWindow config samples x) := by
  have hholds := windowsHold_feed q hM hN (samples ++ [x])
  have hconfig := feed_config q config (samples ++ [x])
  rw [feed_append] at hholds hconfig
  have hdrifts := hholds.drifts.length_cells
  have hoffsets := hholds.offsets.length_cells
  have hperm := hholds.drifts.perm
  rw [hconfig] at hperm
  rw [hconfig, List.length_map, List.length_append, List.length_singleton] at hdrifts hoffsets
  have hsome := margins_isSome_iff q config
    ((feed q config samples).addSample x.1 x.2).drifts.cells
    ((feed q config samples).addSample x.1 x.2).offsets.cells
  rw [marginsDefined_perm hperm] at hsome
  unfold driftWindow
  rw [← hsome]
  simp only [PublishesAt, calculateBounds, hconfig, hdrifts, hoffsets]
  split
  · next hshort =>
    simp only [reduceCtorEq, exists_false, false_iff]
    omega
  · next henough =>
    have henough' : config.M ≤ samples.length + 1 ∨ config.N ≤ samples.length + 1 := by omega
    split
    · next hnone => simp [hnone]
    · next hvalue => simp [hvalue, henough']

/-- Stand-ins with the right signs: the mean of the distribution for its quantile, and the root
rounded down to a multiple of `1 / x.den`. -/
def meanQuantiles : Quantiles where
  chiSquared k _ := k
  normal p := 2 * p - 1
  erfInv p := p
  sqrt x := (Nat.sqrt (x.num.toNat * x.den) : ℚ) / x.den
  chiSquared_pos hk _ _ := Nat.cast_pos.mpr hk
  sqrt_nonneg _ := by positivity
  sqrt_pos_iff x := by
    rw [div_pos_iff_of_pos_right (Nat.cast_pos.mpr x.den_pos), Nat.cast_pos, Nat.sqrt_pos,
      ← Rat.num_pos]
    have hden := x.den_pos
    constructor
    · intro h
      have hnum : 0 < x.num.toNat := Nat.pos_of_mul_pos_right h
      omega
    · intro h
      exact Nat.mul_pos (by omega) hden

end SyncUncertainty

end Qot
