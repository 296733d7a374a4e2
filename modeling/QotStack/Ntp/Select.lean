import Mathlib.Data.Rat.Floor
import QotStack.Lib.Sweep
import QotStack.Ntp.Filter

/-!
# QotStack — selecting the correct time servers (`select_clock` in `algorithm.c`)

Each server gives an interval for the true offset; some of them may be wrong. For more and more
wrong ones, `select_clock` looks for an interval that agrees with all the others. The low points,
the midpoints and the high points of the intervals are sorted. A sweep upwards counts the intervals
it is in, until they are all but `f`, and one downwards does the same; the result is accepted if it
is not empty and at most `f` midpoints have been passed.

* `selectClock_contains` — the result contains every value that all but `f` intervals contain, and
  all but `f` midpoints;
* `selectClock_shift_iff` — the two ends are kept in an `int`. The result moves with the intervals
  exactly if its own ends stay in that range, and every attempt that has been rejected has both ends
  carried over the same number of times.
-/

namespace Qot.Ntp

open MachineInt SelectionSort Sweep

inductive PointType where
  | low
  | mean
  | high
  deriving DecidableEq, Repr

structure Point where
  type : PointType
  offset : Int64
  deriving DecidableEq, Repr

/-- What `select_clock` leaves in the local clock, with the number of wrong sources it has come
to. -/
structure Selection where
  f : Nat
  low : Int64
  up : Int64
  deriving DecidableEq, Repr

def pointList (intervList : List Interval) : List Point :=
  intervList.flatMap fun i => [⟨.low, i.low⟩, ⟨.mean, i.offset⟩, ⟨.high, i.up⟩]

def sortPoints (points : List Point) : List Point := selectionSort (·.offset.toInt) points

/-- How the number of intervals changes on the way up. -/
def Point.rise (p : Point) : Int :=
  match p.type with
  | .low => 1
  | .mean => 0
  | .high => -1

def Point.fall (p : Point) : Int := -p.rise

def Point.isMean (p : Point) : Bool := p.type = .mean

/-- The first scan: the midpoints it passes, and where it stops. -/
def lowSweep (points : List Point) (need : Int) : Nat × Option Point :=
  sweep Point.rise Point.isMean need points 0 0

/-- The second scan. It goes on with the count of the first. -/
def upSweep (points : List Point) (need : Int) (d : Nat) : Nat × Option Point :=
  sweep Point.fall Point.isMean need points.reverse 0 d

/-- The value of `l` or `u`: a new one, or that of the attempt before. -/
def endPoint (found : Option Point) (old : Int32) : Int32 := found.elim old (·.offset.toInt32)

/-- The loop over the number `f` of wrong sources. -/
def selectLoop (points : List Point) (m : Nat) : Nat → Nat → Int32 → Int32 → Option Selection
  | 0, _, _, _ => none
  | fuel + 1, f, l, u =>
    let lower := lowSweep points (m - f)
    -- a scan that finds no end leaves the one of the attempt before
    let l := endPoint lower.2 l
    let upper := upSweep points (m - f) lower.1
    let u := endPoint upper.2 u
    if upper.1 ≤ f ∧ l < u then some ⟨f, l.toInt64, u.toInt64⟩
    else if f + 1 ≥ m / 2 then none
    else selectLoop points m fuel (f + 1) l u

def selectClock (intervList : List Interval) : Option Selection :=
  selectLoop (sortPoints (pointList intervList)) intervList.length (intervList.length + 1) 0 0 0

/-! ## Attempts -/

/-- The two ends an attempt comes to, in an `int`, if at most `f` midpoints have been passed. -/
def attemptEnds (points : List Point) (m f : Nat) : Option (Int32 × Int32) :=
  let lower := lowSweep points (m - f)
  let upper := upSweep points (m - f) lower.1
  lower.2.bind fun p => upper.2.bind fun q =>
    if upper.1 ≤ f then some (p.offset.toInt32, q.offset.toInt32) else none

/-- What an attempt with these ends gives. -/
def acceptEnds (f : Nat) (ends : Int32 × Int32) : Option Selection :=
  if ends.1 < ends.2 then some ⟨f, ends.1.toInt64, ends.2.toInt64⟩ else none

/-- One attempt, without what is left from the ones before. -/
def attempt (points : List Point) (m f : Nat) : Option Selection :=
  (attemptEnds points m f).bind (acceptEnds f)

section Loop

variable {points : List Point} {m f : Nat}

/-- An accepted attempt finds both ends, passes at most `f` midpoints and is not empty. -/
theorem attempt_eq_some_iff {s : Selection} :
    attempt points m f = some s
      ↔ ∃ d d' p q, lowSweep points (m - f) = (d, some p) ∧ upSweep points (m - f) d = (d', some q)
        ∧ d' ≤ f ∧ p.offset.toInt32 < q.offset.toInt32
        ∧ s = ⟨f, p.offset.toInt32.toInt64, q.offset.toInt32.toInt64⟩ := by
  simp only [attempt, attemptEnds, acceptEnds, Option.bind_eq_some_iff]
  constructor
  · rintro ⟨ends, ⟨p, hp, q, hq, hends⟩, haccept⟩
    obtain ⟨hd, ⟨⟩⟩ := Option.ite_none_right_eq_some.mp hends
    obtain ⟨hlt, ⟨⟩⟩ := Option.ite_none_right_eq_some.mp haccept
    exact ⟨_, _, p, q, Prod.ext rfl hp, Prod.ext rfl hq, hd, hlt, rfl⟩
  · rintro ⟨d, d', p, q, hp, hq, hd, hlt, rfl⟩
    rw [hp, hq]
    exact ⟨_, ⟨p, rfl, q, rfl, if_pos hd⟩, if_pos hlt⟩

variable (hmeans : points.countP Point.isMean = m)

include hmeans

/-- A scan that finds no end passes all midpoints, which are more than `f`. -/
theorem found_of_accepted (hf : f < m) {d d' : Nat} {lower upper : Option Point}
    (hlower : lowSweep points (m - f) = (d, lower))
    (hupper : upSweep points (m - f) d = (d', upper)) (haccept : d' ≤ f) :
    ∃ p q, lower = some p ∧ upper = some q := by
  have hcount : d ≤ (upSweep points (m - f) d).1 := le_sweep _ _ _
  rw [hupper] at hcount
  cases lower with
  | none =>
    -- all `m` midpoints have been counted
    have hall : (lowSweep points (m - f)).1 = 0 + points.countP Point.isMean :=
      sweep_none (congrArg Prod.snd hlower)
    rw [hlower] at hall
    omega
  | some p =>
    cases upper with
    | none =>
      have hall : (upSweep points (m - f) d).1 = d + points.reverse.countP Point.isMean :=
        sweep_none (congrArg Prod.snd hupper)
      rw [hupper, List.countP_reverse] at hall
      omega
    | some q => exact ⟨p, q, rfl, rfl⟩

/-- So nothing in an accepted attempt is left from the ones before. -/
theorem selectLoop_succ (hf : f < m) (fuel : Nat) (l u : Int32) :
    ∃ l' u', selectLoop points m (fuel + 1) f l u
      = (attempt points m f).or
        (if f + 1 ≥ m / 2 then none else selectLoop points m fuel (f + 1) l' u') := by
  rcases hlower : lowSweep points (m - f) with ⟨d, lower⟩
  rcases hupper : upSweep points (m - f) d with ⟨d', upper⟩
  refine ⟨endPoint lower l, endPoint upper u, ?_⟩
  simp only [selectLoop, hlower, hupper]
  split
  next haccept =>
    obtain ⟨p, q, rfl, rfl⟩ := found_of_accepted hmeans hf hlower hupper haccept.1
    rw [attempt_eq_some_iff.2 ⟨d, d', p, q, hlower, hupper, haccept.1, haccept.2, rfl⟩]
    rfl
  next hreject =>
    have hattempt : attempt points m f = none := by
      rw [Option.eq_none_iff_forall_ne_some]
      intro s hs
      obtain ⟨_, _, p, q, hp, hq, hd, hlt, -⟩ := attempt_eq_some_iff.1 hs
      cases hlower.symm.trans hp
      cases hupper.symm.trans hq
      exact hreject ⟨hd, hlt⟩
    rw [hattempt]
    rfl

/-- **A successful selection is an accepted attempt.** -/
theorem attempt_of_selectLoop (hf : f < m) {fuel : Nat} {l u : Int32} {s : Selection}
    (h : selectLoop points m fuel f l u = some s) : ∃ f' < m, attempt points m f' = some s := by
  induction fuel generalizing f l u with
  | zero => cases h
  | succ fuel ih =>
    obtain ⟨l', u', hstep⟩ := selectLoop_succ hmeans hf fuel l u
    rw [hstep] at h
    cases hattempt : attempt points m f with
    | some s' =>
      rw [hattempt] at h
      exact ⟨f, hf, hattempt.trans h⟩
    | none =>
      -- the next attempt, with whatever this one has left in `l` and `u`
      rw [hattempt, Option.none_or] at h
      split at h
      · cases h
      · exact ih (by omega) h

end Loop

/-- The loop has ended when it has taken half of the sources to be wrong. -/
theorem selectLoop_fuel (points : List Point) {m fuel : Nat} (hfuel : 0 < fuel) {f : Nat}
    (h : m / 2 ≤ f + fuel) (more : Nat) (l u : Int32) :
    selectLoop points m (fuel + more) f l u = selectLoop points m fuel f l u := by
  induction fuel generalizing f l u with
  | zero => cases hfuel
  | succ fuel ih =>
    rw [Nat.succ_add_eq_add_succ, Nat.add_succ]
    simp only [selectLoop]
    split
    · rfl
    · split
      · rfl
      · exact ih (by omega) (by omega) _ _

/-- **The loop never runs out of fuel.** -/
theorem selectClock_fuel (intervList : List Interval) (more : Nat) :
    selectLoop (sortPoints (pointList intervList)) intervList.length (intervList.length + 1 + more)
      0 0 0
      = selectClock intervList :=
  selectLoop_fuel _ (Nat.zero_lt_succ _) (by omega) more 0 0

/-! ## The points -/

theorem countP_mean_pointList (intervList : List Interval) :
    (pointList intervList).countP Point.isMean = intervList.length := by
  unfold pointList
  induction intervList with
  | nil => rfl
  | cons i rest ih =>
    rw [List.flatMap_cons, List.countP_append, ih]
    simp [Point.isMean]
    omega

theorem countP_mean_sortPoints (intervList : List Interval) :
    (sortPoints (pointList intervList)).countP Point.isMean = intervList.length :=
  ((perm_selectionSort _).countP_eq _).trans (countP_mean_pointList intervList)

/-- The midpoints with a property. -/
theorem countP_mean_and (intervList : List Interval) (within : Int → Bool) :
    (pointList intervList).countP (fun p => p.isMean && within p.offset.toInt)
      = intervList.countP fun i => within i.offset.toInt := by
  unfold pointList
  induction intervList with
  | nil => rfl
  | cons i rest ih =>
    rw [List.flatMap_cons, List.countP_append, ih, List.countP_cons]
    simp [Point.isMean, List.countP_cons, Nat.add_comm]

/-- The weights of the points with a property add up to the number of intervals for which they
do. -/
theorem sum_weights {weight : Point → Int} {within : Point → Prop} [DecidablePred within]
    {member : Interval → Prop} [DecidablePred member] {intervList : List Interval}
    (hmean : ∀ x, weight ⟨.mean, x⟩ = 0)
    (hmember : ∀ i ∈ intervList, (if within ⟨.low, i.low⟩ then weight ⟨.low, i.low⟩ else 0)
      + (if within ⟨.high, i.up⟩ then weight ⟨.high, i.up⟩ else 0) = if member i then 1 else 0) :
    (((pointList intervList).filter fun p => decide (within p)).map weight).sum
      = intervList.countP fun i => decide (member i) := by
  unfold pointList
  induction intervList with
  | nil => rfl
  | cons i rest ih =>
    have hi := hmember i List.mem_cons_self
    have hrest := ih fun j hj => hmember j (List.mem_cons_of_mem _ hj)
    rw [List.flatMap_cons, List.filter_append, List.map_append, List.sum_append, hrest,
      List.countP_cons]
    push_cast
    simp only [decide_eq_true_eq]
    rw [← hi]
    simp only [List.filter_cons, List.filter_nil, decide_eq_true_eq]
    split <;> split <;> split <;> simp_all <;> omega

def Point.Before (p q : Point) : Prop := p.offset.toInt < q.offset.toInt

variable {points : List Point} {x : ℚ} {s : Selection}

/-- Sorted points that are all different come one strictly after the other. -/
theorem pairwise_sortPoints (h : points.Pairwise fun p q => p.offset ≠ q.offset) :
    (sortPoints points).Pairwise Point.Before := by
  have hperm : (sortPoints points).Perm points := perm_selectionSort points
  have hsorted : (sortPoints points).Pairwise fun p q => p.offset.toInt ≤ q.offset.toInt :=
    pairwise_selectionSort points
  have hdistinct : (sortPoints points).Pairwise fun p q => p.offset ≠ q.offset :=
    h.perm hperm.symm fun hne => hne.symm
  -- in order and not the same: strictly in order
  refine (hsorted.and hdistinct).imp ?_
  rintro p q ⟨hle, hne⟩
  have hne' : p.offset.toInt ≠ q.offset.toInt := fun heq => hne (Int64.toInt_inj.1 heq)
  unfold Point.Before
  omega

/-! ## The truth is in the selection -/

abbrev Interval.Contains (i : Interval) (x : ℚ) : Prop := (i.low.toInt : ℚ) ≤ x ∧ x ≤ i.up.toInt

/-- The midpoint of the interval is not in the selection. -/
abbrev Interval.Outside (i : Interval) (s : Selection) : Prop :=
  i.offset.toInt < s.low.toInt ∨ s.up.toInt < i.offset.toInt

/-- The points a sweep upwards has passed when it has come to `x`. The end of an interval that ends
at `x` is not among them, as the interval contains `x`. -/
abbrev Point.UpTo (x : ℚ) (p : Point) : Prop :=
  (p.offset.toInt : ℚ) < x ∨ (p.offset.toInt : ℚ) = x ∧ p.type ≠ .high

/-- The points a sweep downwards has passed. -/
abbrev Point.DownTo (x : ℚ) (p : Point) : Prop :=
  x < p.offset.toInt ∨ (p.offset.toInt : ℚ) = x ∧ p.type ≠ .low

theorem upTo_low {l : Int64} : Point.UpTo x ⟨.low, l⟩ ↔ (l.toInt : ℚ) ≤ x := by
  simp [Point.UpTo, le_iff_lt_or_eq]

theorem upTo_high {u : Int64} : Point.UpTo x ⟨.high, u⟩ ↔ (u.toInt : ℚ) < x := by
  simp [Point.UpTo]

theorem downTo_low {l : Int64} : Point.DownTo x ⟨.low, l⟩ ↔ x < l.toInt := by
  simp [Point.DownTo]

theorem downTo_high {u : Int64} : Point.DownTo x ⟨.high, u⟩ ↔ x ≤ u.toInt := by
  simp [Point.DownTo, le_iff_lt_or_eq, eq_comm]

theorem Point.UpTo.closed (p q : Point) (hpq : p.Before q) (hq : Point.UpTo x q) :
    Point.UpTo x p := by
  have hlt : (p.offset.toInt : ℚ) < q.offset.toInt := by exact_mod_cast hpq
  rcases hq with hq | ⟨hq, -⟩
  · exact Or.inl (hlt.trans hq)
  · exact Or.inl (hq ▸ hlt)

theorem Point.DownTo.closed (p q : Point) (hqp : q.Before p) (hq : Point.DownTo x q) :
    Point.DownTo x p := by
  have hlt : (q.offset.toInt : ℚ) < p.offset.toInt := by exact_mod_cast hqp
  rcases hq with hq | ⟨hq, -⟩
  · exact Or.inl (hq.trans hlt)
  · exact Or.inl (hq ▸ hlt)

/-- An interval contains `x` if it has begun there and has not ended. -/
theorem begun_not_ended {l u : ℚ} (h : l ≤ u) :
    (if l ≤ x then 1 else 0) + (if u < x then -1 else 0)
      = if l ≤ x ∧ x ≤ u then (1 : Int) else 0 := by
  -- one that has ended has begun
  by_cases hu : u < x
  · rw [if_pos (h.trans hu.le), if_pos hu, if_neg fun hx => absurd hx.2 (not_le.2 hu)]
    rfl
  · simp only [hu, if_false, Int.add_zero, not_lt.1 hu, and_true]

theorem ended_not_begun {l u : ℚ} (h : l ≤ u) :
    (if x < l then -1 else 0) + (if x ≤ u then 1 else 0)
      = if l ≤ x ∧ x ≤ u then (1 : Int) else 0 := by
  by_cases hl : x < l
  · rw [if_pos hl, if_pos (hl.le.trans h), if_neg fun hx => absurd hx.1 (not_le.2 hl)]
    rfl
  · simp only [hl, if_false, Int.zero_add, not_lt.1 hl, true_and]

section Contains

variable {intervList : List Interval} {need : Int} (hneed : 0 < need) {x : ℚ}
  (hx : need ≤ intervList.countP fun i => decide (i.Contains x))

include hneed hx

/-- A sweep whose weights up to `x` count the intervals that contain `x` has stopped when it comes
there. -/
theorem sweep_upTo (weight : Point → Int) {within : Point → Prop} [DecidablePred within]
    {r : Point → Point → Prop} {points : List Point} (hperm : points.Perm (pointList intervList))
    (hsorted : points.Pairwise r) (hclosed : ∀ p q, r p q → within q → within p)
    (hmean : ∀ o, weight ⟨.mean, o⟩ = 0)
    (hmember : ∀ i ∈ intervList, (if within ⟨.low, i.low⟩ then weight ⟨.low, i.low⟩ else 0)
      + (if within ⟨.high, i.up⟩ then weight ⟨.high, i.up⟩ else 0)
        = if i.Contains x then 1 else 0) (d : Nat) :
    ∃ p, within p ∧ (sweep weight Point.isMean need points 0 d).2 = some p := by
  apply sweep_within hclosed hsorted hneed
  rw [((hperm.filter _).map _).sum_eq, sum_weights hmean hmember, Int.zero_add]
  exact hx

variable (hordered : ∀ i ∈ intervList, i.low.toInt ≤ i.up.toInt)
  (hdistinct : (pointList intervList).Pairwise fun p q => p.offset ≠ q.offset)

include hordered hdistinct

theorem lowSweep_le :
    ∃ p, (lowSweep (sortPoints (pointList intervList)) need).2 = some p
      ∧ (p.offset.toInt : ℚ) ≤ x := by
  obtain ⟨p, hwithin, hstop⟩ := sweep_upTo hneed hx Point.rise (perm_selectionSort _)
    (pairwise_sortPoints hdistinct) Point.UpTo.closed (fun _ => rfl) (fun i hi => by
      simp only [upTo_low, upTo_high]
      exact begun_not_ended (by exact_mod_cast hordered i hi)) 0
  exact ⟨p, hstop, hwithin.elim le_of_lt fun h => le_of_eq h.1⟩

theorem le_upSweep (d : Nat) :
    ∃ q, (upSweep (sortPoints (pointList intervList)) need d).2 = some q ∧ x ≤ q.offset.toInt := by
  obtain ⟨q, hwithin, hstop⟩ := sweep_upTo hneed hx Point.fall
    ((List.reverse_perm _).trans (perm_selectionSort _))
    (List.pairwise_reverse.2 (pairwise_sortPoints hdistinct)) Point.DownTo.closed (fun _ => rfl)
    (fun i hi => by
      simp only [downTo_low, downTo_high]
      exact ended_not_begun (by exact_mod_cast hordered i hi)) d
  exact ⟨q, hstop, hwithin.elim le_of_lt fun h => le_of_eq h.1.symm⟩

end Contains

section Midpoints

theorem isMean_of_rise {p : Point} (h : 0 < p.rise) : p.isMean = false := by
  unfold Point.rise at h
  unfold Point.isMean
  split at h <;> simp_all

theorem isMean_of_fall {p : Point} (h : 0 < p.fall) : p.isMean = false := by
  unfold Point.fall Point.rise at h
  unfold Point.isMean
  split at h <;> simp_all

variable {need : Int} (hneed : 0 < need) {weight : Point → Int}
  (hweight : ∀ {p : Point}, 0 < weight p → p.isMean = false) {points : List Point}
  {d : Nat} {p : Point} (h : (sweep weight Point.isMean need points 0 d).2 = some p)

include hneed hweight h

/-- A sweep stops at an end of an interval. -/
theorem sweep_stop : p ∈ points ∧ p.isMean = false := by
  obtain ⟨pre, post, hsplit, hpos, -⟩ := sweep_some hneed h
  exact ⟨hsplit ▸ List.mem_append_right _ List.mem_cons_self, hweight hpos⟩

/-- The midpoints it passes are those on the way to the point it stops at. -/
theorem sweep_count {r : Point → Point → Prop} [DecidableRel r] (hirrefl : ∀ p, ¬ r p p)
    (hasymm : ∀ p q, r p q → ¬ r q p) (hsorted : points.Pairwise r) :
    (sweep weight Point.isMean need points 0 d).1
      = d + points.countP fun q => q.isMean && decide (r q p) := by
  obtain ⟨pre, post, hsplit, hpos, hcount⟩ := sweep_some hneed h
  have hbefore : points.countP (fun q => q.isMean && decide (r q p)) = pre.countP Point.isMean := by
    rw [hsplit] at hsorted ⊢
    exact countP_before hirrefl hasymm hsorted
  rw [hcount, List.countP_append, List.countP_singleton, hweight hpos, hbefore]
  rfl

end Midpoints

section Passed

variable {intervList : List Interval}
  (hdistinct : (pointList intervList).Pairwise fun p q => p.offset ≠ q.offset)
  {need : Int} (hneed : 0 < need)

include hdistinct hneed

theorem lowSweep_count {p : Point} {d : Nat}
    (h : lowSweep (sortPoints (pointList intervList)) need = (d, some p)) :
    d = intervList.countP fun i => decide (i.offset.toInt < p.offset.toInt) := by
  have hperm : (sortPoints (pointList intervList)).Perm (pointList intervList) :=
    perm_selectionSort _
  refine (congrArg Prod.fst h).symm.trans ?_
  rw [lowSweep, sweep_count hneed isMean_of_rise (congrArg Prod.snd h)
    (fun q => lt_irrefl q.offset.toInt) (fun _ _ => lt_asymm)
    (pairwise_sortPoints hdistinct), hperm.countP_eq, Nat.zero_add]
  exact countP_mean_and intervList fun o => decide (o < p.offset.toInt)

theorem upSweep_count {q : Point} {d d' : Nat}
    (h : upSweep (sortPoints (pointList intervList)) need d = (d', some q)) :
    d' = d + intervList.countP fun i => decide (q.offset.toInt < i.offset.toInt) := by
  have hperm : (sortPoints (pointList intervList)).reverse.Perm (pointList intervList) :=
    (List.reverse_perm _).trans (perm_selectionSort _)
  refine (congrArg Prod.fst h).symm.trans ?_
  rw [upSweep, sweep_count hneed isMean_of_fall (congrArg Prod.snd h)
    (fun p => lt_irrefl p.offset.toInt) (fun _ _ => lt_asymm)
    (List.pairwise_reverse.2 (pairwise_sortPoints hdistinct)), hperm.countP_eq]
  congr 1
  exact countP_mean_and intervList fun o => decide (q.offset.toInt < o)

end Passed

theorem countP_or_le {α : Type} (a b : α → Prop) [DecidablePred a] [DecidablePred b] (l : List α) :
    l.countP (fun x => decide (a x ∨ b x))
      ≤ l.countP (fun x => decide (a x)) + l.countP fun x => decide (b x) := by
  induction l with
  | nil => exact le_refl 0
  | cons x l ih =>
    simp only [List.countP_cons, decide_eq_true_eq]
    by_cases ha : a x <;> by_cases hb : b x <;> simp only [ha, hb, or_self, or_true, true_or,
      if_true, if_false] <;> omega

/-- An accepted attempt, in the values of the two points it stops at. -/
theorem accepted_of_selectClock {intervList : List Interval}
    (hrange : ∀ p ∈ pointList intervList, Fits32 p.offset.toInt)
    (h : selectClock intervList = some s) :
    s.f < intervList.length
      ∧ ∃ d d' p q,
        lowSweep (sortPoints (pointList intervList)) (intervList.length - s.f) = (d, some p)
        ∧ upSweep (sortPoints (pointList intervList)) (intervList.length - s.f) d = (d', some q)
        ∧ d' ≤ s.f ∧ s.low.toInt = p.offset.toInt ∧ s.up.toInt = q.offset.toInt
        ∧ p.offset.toInt < q.offset.toInt := by
  have hperm : (sortPoints (pointList intervList)).Perm (pointList intervList) :=
    perm_selectionSort _
  have hpos : 0 < intervList.length := by
    rw [Nat.pos_iff_ne_zero]
    intro h0
    rw [List.length_eq_zero_iff.1 h0] at h
    exact Option.some_ne_none s h.symm
  obtain ⟨f, hf, hattempt⟩ := attempt_of_selectLoop (countP_mean_sortPoints intervList) hpos h
  obtain ⟨d, d', p, q, hp, hq, hd, hlt, rfl⟩ := attempt_eq_some_iff.1 hattempt
  have hneed : (0 : Int) < intervList.length - f := by omega
  obtain ⟨hpmem, -⟩ := sweep_stop hneed isMean_of_rise (congrArg Prod.snd hp)
  obtain ⟨hqmem, -⟩ := sweep_stop hneed isMean_of_fall (congrArg Prod.snd hq)
  have hlow := toInt_toInt32_of_fits (hrange p (hperm.subset hpmem))
  have hup := toInt_toInt32_of_fits (hrange q (hperm.subset (List.mem_reverse.1 hqmem)))
  rw [Int32.lt_iff_toInt_lt, hlow, hup] at hlt
  exact ⟨hf, d, d', p, q, hp, hq, hd, (Int32.toInt_toInt64 _).trans hlow,
    (Int32.toInt_toInt64 _).trans hup, hlt⟩

/-- **The selection contains the truth.** It is not empty; it contains every value that all but `f`
of the intervals contain, and at most `f` midpoints are outside it. -/
theorem selectClock_contains (intervList : List Interval)
    (hordered : ∀ i ∈ intervList, i.low.toInt ≤ i.offset.toInt ∧ i.offset.toInt ≤ i.up.toInt)
    (hdistinct : (pointList intervList).Pairwise fun p q => p.offset ≠ q.offset)
    (hrange : ∀ p ∈ pointList intervList, Fits32 p.offset.toInt) {s : Selection}
    (h : selectClock intervList = some s) :
    s.low.toInt < s.up.toInt
      ∧ (∀ x : ℚ, (intervList.length : Int) - s.f
        ≤ intervList.countP (fun i => decide (i.Contains x)) →
        s.low.toInt ≤ x ∧ x ≤ s.up.toInt)
      ∧ intervList.countP (fun i => decide (i.Outside s)) ≤ s.f := by
  have hordered' : ∀ i ∈ intervList, i.low.toInt ≤ i.up.toInt := by
    intro i hi
    have := hordered i hi
    omega
  obtain ⟨hf, d, d', p, q, hp, hq, hd, hlow, hup, hlt⟩ := accepted_of_selectClock hrange h
  have hneed : (0 : Int) < intervList.length - s.f := by omega
  refine ⟨by rw [hlow, hup]; exact hlt, ?_, ?_⟩
  · -- both scans have stopped when they come to `x`
    intro x hx
    obtain ⟨p', hp', hple⟩ := lowSweep_le hneed hx hordered' hdistinct
    obtain ⟨q', hq', hqge⟩ := le_upSweep hneed hx hordered' hdistinct _
    rw [hp] at hp'
    rw [hq] at hq'
    cases hp'
    cases hq'
    rw [hlow, hup]
    exact ⟨hple, hqge⟩
  · -- the midpoints outside are those that the two scans have passed
    have hpassed := lowSweep_count hdistinct hneed hp
    have hpassed' := upSweep_count hdistinct hneed hq
    have hle := countP_or_le (fun i : Interval => i.offset.toInt < p.offset.toInt)
      (fun i => q.offset.toInt < i.offset.toInt) intervList
    simp only [Interval.Outside, hlow, hup]
    omega

/-- Three servers that agree and one that is wrong. -/
def fourServers : List Interval :=
  [⟨2, 0, -10, 10, 10⟩, ⟨2, 101, 100, 102, 1⟩, ⟨2, 1, -9, 11, 10⟩, ⟨2, 2, -8, 12, 10⟩]

theorem selectClock_contains_four :
    selectClock fourServers = some ⟨1, -8, 10⟩
      ∧ (∀ x : ℚ, (fourServers.length : Int) - 1
        ≤ fourServers.countP (fun i => decide (i.Contains x)) →
        (-8 : Int64).toInt ≤ x ∧ x ≤ (10 : Int64).toInt)
      ∧ fourServers.countP (fun i => decide (i.Outside ⟨1, -8, 10⟩)) ≤ 1 :=
  ⟨by decide, (selectClock_contains fourServers (by decide) (by decide) (by decide)
    (s := ⟨1, -8, 10⟩) (by decide)).2⟩

/-! ## Moved intervals -/

def Interval.shift (k : Int) (i : Interval) : Interval :=
  { i with
    offset := Int64.ofInt (i.offset.toInt + k)
    low := Int64.ofInt (i.low.toInt + k)
    up := Int64.ofInt (i.up.toInt + k) }

def Point.shift (k : Int) (p : Point) : Point :=
  { p with offset := Int64.ofInt (p.offset.toInt + k) }

theorem pointList_shift (k : Int) (intervList : List Interval) :
    pointList (intervList.map (Interval.shift k)) = (pointList intervList).map (Point.shift k) := by
  simp only [pointList, List.flatMap_map, List.map_flatMap]
  rfl

/-- The two ends of the second selection are those of the first, moved. -/
def Selection.ShiftedBy (k : Int) (s t : Selection) : Prop :=
  t.low.toInt = s.low.toInt + k ∧ t.up.toInt = s.up.toInt + k

section Shift

variable {points : List Point} {k : Int} (hfits : ∀ p ∈ points, Fits64 (p.offset.toInt + k))

include hfits

theorem toInt_shift {p : Point} (hp : p ∈ points) : (p.shift k).offset.toInt = p.offset.toInt + k :=
  toInt_ofInt_of_fits (hfits p hp)

/-- Moved points are in the same order. -/
theorem sortPoints_shift :
    sortPoints (points.map (Point.shift k)) = (sortPoints points).map (Point.shift k) := by
  apply selectionSort_map
  intro p hp q hq
  rw [toInt_shift hfits hp, toInt_shift hfits hq]
  omega

end Shift

theorem lowSweep_shift (k : Int) (points : List Point) (need : Int) :
    lowSweep (points.map (Point.shift k)) need
      = ((lowSweep points need).1, (lowSweep points need).2.map (Point.shift k)) :=
  sweep_map (fun _ => rfl) (fun _ => rfl) points 0 0

theorem upSweep_shift (k : Int) (points : List Point) (need : Int) (d : Nat) :
    upSweep (points.map (Point.shift k)) need d
      = ((upSweep points need d).1, (upSweep points need d).2.map (Point.shift k)) := by
  unfold upSweep
  rw [← List.map_reverse]
  exact sweep_map (fun _ => rfl) (fun _ => rfl) points.reverse 0 d

/-! ### Ends in an `int` -/

/-- An `int` that has been moved. -/
def shift32 (k : Int) (x : Int32) : Int32 := Int32.ofInt (x.toInt + k)

/-- The number of times an `int` is carried over its range when it is moved. -/
def rounds (k : Int) (x : Int32) : Int := (x.toInt + k + 2147483648) / 4294967296

theorem toInt_shift32 (k : Int) (x : Int32) :
    (shift32 k x).toInt = x.toInt + k - 4294967296 * rounds k x := by
  have hsize : ((Int32.size : Nat) : Int) = 4294967296 := rfl
  unfold shift32 rounds
  rw [Int32.toInt_ofInt, Int.bmod_def, hsize]
  omega

theorem shift32_of_fits {k : Int} {x : Int32} (h : Fits32 (x.toInt + k)) :
    (shift32 k x).toInt = x.toInt + k := by
  rw [toInt_shift32]
  unfold rounds
  omega

/-- An end is cut to an `int` after it has been moved, or before. -/
theorem toInt32_shift (k : Int) (p : Point) :
    (p.shift k).offset.toInt32 = shift32 k p.offset.toInt32 := by
  apply Int32.toInt_inj.mp
  show (Int64.ofInt (p.offset.toInt + k)).toInt32.toInt = _
  rw [shift32, Int64.toInt32_ofInt, Int32.toInt_ofInt, Int32.toInt_ofInt, Int64.toInt_toInt32]
  have hsize : Int32.size = 4294967296 := rfl
  simp only [Int.bmod_def, hsize, Nat.reducePow]
  omega

/-- Two ends that are in the wrong order stay so exactly if they are carried over together. -/
theorem shift32_lt_iff {k : Int} {l u : Int32} (h : u ≤ l) :
    shift32 k l < shift32 k u ↔ rounds k l ≠ rounds k u := by
  have hl := fits32_toInt l
  have hu := fits32_toInt u
  rw [Int32.le_iff_toInt_le] at h
  rw [Int32.lt_iff_toInt_lt, toInt_shift32, toInt_shift32]
  unfold rounds
  omega

/-- What a moved end says about the one before. -/
theorem eq_of_shift32 {k : Int} {x y : Int32} (h : (shift32 k x).toInt = y.toInt + k) : x = y := by
  have hx := fits32_toInt x
  have hy := fits32_toInt y
  apply Int32.toInt_inj.mp
  rw [toInt_shift32] at h
  omega

/-- The ends of a selection have been kept in an `int`, and are in order. -/
theorem lt_of_selectLoop {m fuel f : Nat} {l u : Int32}
    (h : selectLoop points m fuel f l u = some s) :
    ∃ low up : Int32, low < up ∧ s.low = low.toInt64 ∧ s.up = up.toInt64 := by
  induction fuel generalizing f l u with
  | zero => cases h
  | succ fuel ih =>
    simp only [selectLoop] at h
    split at h
    · next haccept =>
      cases h
      exact ⟨_, _, haccept.2, rfl, rfl⟩
    · split at h
      · cases h
      · exact ih h

/-! ### Attempts on moved points -/

theorem attemptEnds_shift (k : Int) (points : List Point) (m f : Nat) :
    attemptEnds (points.map (Point.shift k)) m f
      = (attemptEnds points m f).map fun ends => (shift32 k ends.1, shift32 k ends.2) := by
  simp only [attemptEnds, lowSweep_shift, upSweep_shift]
  cases (lowSweep points (m - f)).2 with
  | none => rfl
  | some p =>
    cases (upSweep points (m - f) (lowSweep points (m - f)).1).2 with
    | none => rfl
    | some q =>
      simp only [Option.map_some, Option.bind_some, toInt32_shift]
      split <;> rfl

/-- The attempts that are made when the first one is for `f` wrong sources. -/
def Tried (m f g : Nat) : Prop := f ≤ g ∧ (g = f ∨ g < m / 2)

/-- **The condition**, for the attempts from `f` on: the selection stays in the range of an `int`,
and the two ends of every attempt that is made and rejected are carried over together. -/
structure MovesInStep (k : Int) (points : List Point) (m f : Nat) (selection : Option Selection) :
    Prop where
  selected : ∀ s, selection = some s → Fits32 (s.low.toInt + k) ∧ Fits32 (s.up.toInt + k)
  rejected : ∀ g, Tried m f g → (∀ h, f ≤ h → h ≤ g → attempt points m h = none) →
    ∀ ends, attemptEnds points m g = some ends → rounds k ends.1 = rounds k ends.2

section ShiftLoop

variable {points : List Point} {k : Int} {m f : Nat}

/-- An attempt that is accepted is accepted on the moved points, if its ends stay in range. -/
theorem attempt_shift_of_fits {s : Selection} (hs : attempt points m f = some s)
    (hlow : Fits32 (s.low.toInt + k)) (hup : Fits32 (s.up.toInt + k)) :
    ∃ t, attempt (points.map (Point.shift k)) m f = some t ∧ s.ShiftedBy k t := by
  obtain ⟨⟨l, u⟩, hends, haccept⟩ := Option.bind_eq_some_iff.mp hs
  obtain ⟨hlt, ⟨⟩⟩ := Option.ite_none_right_eq_some.mp haccept
  simp only [Int32.toInt_toInt64] at hlow hup
  have hmoved : shift32 k l < shift32 k u := by
    rw [Int32.lt_iff_toInt_lt] at hlt ⊢
    rw [shift32_of_fits hlow, shift32_of_fits hup]
    simpa using hlt
  refine ⟨⟨f, (shift32 k l).toInt64, (shift32 k u).toInt64⟩, ?_, ?_, ?_⟩
  · unfold attempt
    rw [attemptEnds_shift, hends]
    exact if_pos hmoved
  · simp only [Int32.toInt_toInt64]
    exact shift32_of_fits hlow
  · simp only [Int32.toInt_toInt64]
    exact shift32_of_fits hup

/-- One that is rejected is rejected exactly if its ends are carried over together. -/
theorem attempt_shift_eq_none_iff (hnone : attempt points m f = none) :
    attempt (points.map (Point.shift k)) m f = none
      ↔ ∀ ends, attemptEnds points m f = some ends → rounds k ends.1 = rounds k ends.2 := by
  unfold attempt at hnone ⊢
  rw [attemptEnds_shift]
  cases hends : attemptEnds points m f with
  | none => simp
  | some ends =>
    rw [hends, Option.bind_some, acceptEnds, ite_eq_right_iff] at hnone
    have hle : ends.2 ≤ ends.1 := Int32.not_lt.mp fun hlt => nomatch hnone hlt
    have hlt := shift32_lt_iff (k := k) hle
    simp only [Option.map_some, Option.bind_some, acceptEnds, ite_eq_right_iff, reduceCtorEq,
      imp_false, Option.some.injEq, forall_eq', hlt, not_not]

theorem tried_succ_iff (hmore : ¬ f + 1 ≥ m / 2) (g : Nat) :
    Tried m f g ↔ g = f ∨ Tried m (f + 1) g := by
  unfold Tried
  omega

/-- With a rejected attempt, the condition is one on its ends, and the condition on the others. -/
theorem movesInStep_of_rejected {selection : Option Selection} (hnone : attempt points m f = none)
    (hmore : ¬ f + 1 ≥ m / 2) :
    MovesInStep k points m f selection
      ↔ (∀ ends, attemptEnds points m f = some ends → rounds k ends.1 = rounds k ends.2)
        ∧ MovesInStep k points m (f + 1) selection := by
  constructor
  · intro h
    refine ⟨h.rejected f ⟨le_refl f, Or.inl rfl⟩ fun g hfg hgf => ?_, h.selected, ?_⟩
    · rw [show g = f by omega]
      exact hnone
    · intro g hg hall
      refine h.rejected g ((tried_succ_iff hmore g).mpr (Or.inr hg)) fun j hfj hjg => ?_
      rcases Nat.eq_or_lt_of_le hfj with rfl | hlt
      · exact hnone
      · exact hall j hlt hjg
  · rintro ⟨hfirst, h⟩
    refine ⟨h.selected, fun g hg hall => ?_⟩
    rcases (tried_succ_iff hmore g).mp hg with rfl | hlater
    · exact hfirst
    · exact h.rejected g hlater fun j hfj hjg => hall j (by omega) hjg

/-- A selection that moves stays in the range of an `int`. -/
theorem fits_of_rel {s : Selection} {points : List Point} {fuel : Nat} {l u : Int32}
    (hrel : Option.Rel (Selection.ShiftedBy k) (some s) (selectLoop points m fuel f l u)) :
    Fits32 (s.low.toInt + k) ∧ Fits32 (s.up.toInt + k) := by
  cases ht : selectLoop points m fuel f l u with
  | none =>
    rw [ht] at hrel
    cases hrel
  | some t =>
    rw [ht] at hrel
    cases hrel with
    | some hmoved =>
      obtain ⟨low, up, -, hlow, hup⟩ := lt_of_selectLoop ht
      rw [← hmoved.1, ← hmoved.2, hlow, hup, Int32.toInt_toInt64, Int32.toInt_toInt64]
      exact ⟨fits32_toInt low, fits32_toInt up⟩

/-- An attempt that is accepted only on the moved points spoils everything after it: it would be a
selection with its ends in the wrong order that has moved. -/
theorem not_rel_of_newly_accepted {fuel : Nat} {l u : Int32} {t : Selection}
    (hnone : attempt points m f = none) (ht : attempt (points.map (Point.shift k)) m f = some t) :
    ¬ Option.Rel (Selection.ShiftedBy k) (selectLoop points m fuel (f + 1) l u) (some t) := by
  intro hrel
  obtain ⟨moved, hmoved, haccept⟩ := Option.bind_eq_some_iff.mp ht
  rw [attemptEnds_shift] at hmoved
  obtain ⟨ends, hends, rfl⟩ := Option.map_eq_some_iff.mp hmoved
  obtain ⟨-, ⟨⟩⟩ := Option.ite_none_right_eq_some.mp haccept
  cases hs : selectLoop points m fuel (f + 1) l u with
  | none =>
    rw [hs] at hrel
    cases hrel
  | some s =>
    rw [hs] at hrel
    obtain ⟨low, up, hlt, hlow, hup⟩ := lt_of_selectLoop hs
    cases hrel with
    | some h =>
      obtain ⟨hl, hu⟩ := h
      rw [hlow] at hl
      rw [hup] at hu
      simp only [Int32.toInt_toInt64] at hl hu
      rw [attempt, hends, Option.bind_some, acceptEnds, eq_of_shift32 hl, eq_of_shift32 hu,
        if_pos hlt] at hnone
      cases hnone

/-- **All attempts**, whatever is left from the ones before. -/
theorem selectLoop_shift_iff (hmeans : points.countP Point.isMean = m) (hf : f < m) {fuel : Nat}
    (hfuel : 0 < fuel) (henough : m / 2 ≤ f + fuel) (l u l' u' : Int32) :
    Option.Rel (Selection.ShiftedBy k) (selectLoop points m fuel f l u)
        (selectLoop (points.map (Point.shift k)) m fuel f l' u')
      ↔ MovesInStep k points m f (selectLoop points m fuel f l u) := by
  have hmeans' : (points.map (Point.shift k)).countP Point.isMean = m := by
    rw [List.countP_map]
    exact hmeans
  induction fuel generalizing f l u l' u' with
  | zero => cases hfuel
  | succ fuel ih =>
    obtain ⟨l₁, u₁, hstep⟩ := selectLoop_succ hmeans hf fuel l u
    obtain ⟨l₂, u₂, hstep'⟩ := selectLoop_succ hmeans' hf fuel l' u'
    cases hattempt : attempt points m f with
    | some s =>
      -- nothing is rejected before the selection
      rw [hattempt, Option.some_or] at hstep
      rw [hstep]
      constructor
      · intro hrel
        refine ⟨?_, fun g hg hall => ?_⟩
        · rintro _ ⟨⟩
          exact fits_of_rel hrel
        · rw [hall f (le_refl f) hg.1] at hattempt
          cases hattempt
      · intro h
        obtain ⟨hlow, hup⟩ := h.selected s rfl
        obtain ⟨t, ht, hmoved⟩ := attempt_shift_of_fits hattempt hlow hup
        rw [hstep', ht, Option.some_or]
        exact .some hmoved
    | none =>
      rw [hattempt, Option.none_or] at hstep
      rw [hstep]
      by_cases hcarried : ∀ ends, attemptEnds points m f = some ends →
          rounds k ends.1 = rounds k ends.2
      · have hnone := (attempt_shift_eq_none_iff hattempt).mpr hcarried
        rw [hstep', hnone, Option.none_or]
        split
        · next hend =>
          -- the last attempt
          refine ⟨fun _ => ⟨fun s hs => (nomatch hs), fun g hg _ => ?_⟩, fun _ => .none⟩
          rw [show g = f by unfold Tried at hg; omega]
          exact hcarried
        · next hmore =>
          have hrest := ih (f := f + 1) (by omega) (by omega) (by omega) l₁ u₁ l₂ u₂
          rw [movesInStep_of_rejected hattempt hmore]
          exact hrest.trans ⟨fun h => ⟨hcarried, h⟩, fun h => h.2⟩
      · obtain ⟨t, ht⟩ := Option.ne_none_iff_exists'.mp fun hnone =>
          hcarried ((attempt_shift_eq_none_iff hattempt).mp hnone)
        rw [hstep', ht, Option.some_or]
        refine ⟨fun hrel => ?_, fun h => ?_⟩
        · split at hrel
          · cases hrel
          · exact absurd hrel (not_rel_of_newly_accepted hattempt ht)
        · refine absurd (h.rejected f ⟨le_refl f, Or.inl rfl⟩ fun g hfg hgf => ?_) hcarried
          rw [show g = f by omega]
          exact hattempt

end ShiftLoop

/-- **When the selection moves with the intervals**: exactly if its own two ends stay in the range
of an `int`, and each attempt that is made and rejected on the way to it has its two ends carried
over that range the same number of times. -/
theorem selectClock_shift_iff (intervList : List Interval) (k : Int)
    (hfits : ∀ p ∈ pointList intervList, Fits64 (p.offset.toInt + k)) :
    Option.Rel (Selection.ShiftedBy k) (selectClock intervList)
        (selectClock (intervList.map (Interval.shift k)))
      ↔ MovesInStep k (sortPoints (pointList intervList)) intervList.length 0
        (selectClock intervList) := by
  unfold selectClock
  rw [pointList_shift, sortPoints_shift hfits, List.length_map]
  cases intervList with
  | nil =>
    refine ⟨fun _ => ⟨fun s hs => (nomatch hs), fun g _ _ ends hends => (nomatch hends)⟩,
      fun _ => .none⟩
  | cons i rest =>
    exact selectLoop_shift_iff (countP_mean_sortPoints _) (Nat.zero_lt_succ _)
      (Nat.zero_lt_succ _) (by omega) 0 0 0 0

/-- Three servers that agree and one whose interval no `int` can hold. -/
def farServers : List Interval :=
  [⟨2, 0, -10, 10, 10⟩, ⟨2, 3000000000, 2999999999, 3000000001, 1⟩, ⟨2, 1, -9, 11, 10⟩,
    ⟨2, 2, -8, 12, 10⟩]

/-- The sweeps stop at ends of the three that agree, and the selection moves with them. -/
theorem selectClock_shift_far :
    Option.Rel (Selection.ShiftedBy 1000000000) (selectClock farServers)
      (selectClock (farServers.map (Interval.shift 1000000000))) := by
  have hselected : selectClock farServers = some ⟨1, -8, 10⟩ := by decide
  refine (selectClock_shift_iff farServers 1000000000 (by decide)).mpr ⟨fun s hs => ?_, ?_⟩
  · cases hselected.symm.trans hs
    decide
  · intro g hg hall ends hends
    have hfirst : g = 0 := by
      by_contra hne
      exact absurd (hall 1 (Nat.zero_le 1) (by omega)) (by decide)
    rw [hfirst] at hends
    have hnone : attemptEnds (sortPoints (pointList farServers)) farServers.length 0 = none := by
      decide
    rw [hnone] at hends
    cases hends

/-- Moved by 50 minutes, the same intervals give a selection on the other side of zero; moved by
about 36 minutes, so that the ends of an `int` are between the two ends, they give none. -/
theorem selectClock_not_shifted :
    (∀ p ∈ pointList fourServers, Fits64 (p.offset.toInt + 3000000000))
      ∧ selectClock fourServers = some ⟨1, -8, 10⟩
      ∧ selectClock (fourServers.map (Interval.shift 3000000000))
        = some ⟨1, -1294967304, -1294967286⟩
      ∧ selectClock (fourServers.map (Interval.shift 2147483648)) = none
      ∧ ¬ Option.Rel (Selection.ShiftedBy 3000000000) (selectClock fourServers)
        (selectClock (fourServers.map (Interval.shift 3000000000))) := by
  have hfour : selectClock fourServers = some ⟨1, -8, 10⟩ := by decide
  have hmoved : selectClock (fourServers.map (Interval.shift 3000000000))
      = some ⟨1, -1294967304, -1294967286⟩ := by decide
  refine ⟨by decide, hfour, hmoved, by decide, ?_⟩
  intro hrel
  rw [hfour, hmoved] at hrel
  cases hrel with
  | some h => exact absurd h.1 (by decide)

end Qot.Ntp
