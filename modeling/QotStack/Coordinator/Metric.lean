import QotStack.Coordinator.Election
import QotStack.Types.Arithmetic
import QotStack.Types.Uncertain

/-!
# QotStack — the metric a coordinator publishes (`Coordinator.cpp`)

A node publishes the accuracy and the resolution that are asked of it, in attoseconds, and ranks in
the election by the accuracy. `Coordinator::Start` and `Coordinator::Update` both compute them, to
publish the larger one of the two bounds of the accuracy. `Start` takes the smaller one, and
multiplies in floating point; `Update` takes the larger one, and multiplies in words of 64 bits, as
both do for the resolution: there 18.4 seconds is the most that does not wrap.

Floating-point numbers are taken to be exact.
-/

namespace Qot

open MachineInt

/-- What a coordinator publishes about the demand on a timeline. -/
structure TimelineMetric where
  accuracy : Int
  resolution : Int
  deriving DecidableEq, Repr

/-- A length in attoseconds, in words. -/
def wordScalar (l : Timelength) : UInt64 := l.sec * aSecPerSec + l.asec

/-- The seconds are converted to floating point before they are multiplied. -/
def startMetric (acc : Timeinterval) (res : Timelength) : TimelineMetric :=
  let maxAccBound := timelengthMin acc.above acc.below
  ⟨maxAccBound.sec.toNat * aSecPerSec.toNat + maxAccBound.asec.toNat, (wordScalar res).toNat⟩

/-- The word is converted when it has been computed. -/
def updateMetric (acc : Timeinterval) (res : Timelength) : TimelineMetric :=
  let maxAccBound := timelengthMax acc.above acc.below
  ⟨(wordScalar maxAccBound).toNat, (wordScalar res).toNat⟩

/-- What is to be published: the larger bound, and the resolution. -/
def exactMetric (acc : Timeinterval) (res : Timelength) : TimelineMetric :=
  ⟨max acc.above.value acc.below.value, res.value⟩

theorem toNat_wordScalar (l : Timelength) :
    ((wordScalar l).toNat : Int) = l.value % 18446744073709551616 := by
  have ha : aSecPerSec.toNat = 1000000000000000000 := rfl
  unfold wordScalar Timelength.value
  rw [UInt64.toNat_add, UInt64.toNat_mul, ha]
  omega

/-- An update keeps the rank of a node exactly if it keeps the accuracy. -/
theorem standing_update_iff {α : Type} [LinearOrder α] (uuid name : String) (domain : Int16)
    (a b : α) :
    ((Coordinator.start uuid name a domain).update b).timeline.standing
      = (Coordinator.start uuid name a domain).timeline.standing ↔ b = a := by
  show toLex (b, name) = toLex (a, name) ↔ b = a
  rw [toLex_inj, Prod.mk.injEq]
  exact and_iff_left rfl

section Metric

variable {acc : Timeinterval} (habove : acc.above.Normalised) (hbelow : acc.below.Normalised)
  (res : Timelength)

include habove hbelow

theorem startMetric_eq :
    startMetric acc res
      = ⟨min acc.above.value acc.below.value, res.value % 18446744073709551616⟩ := by
  have hmin := timelengthMin_value habove hbelow
  have ha : (aSecPerSec.toNat : Int) = 1000000000000000000 := rfl
  unfold Timelength.value at hmin
  simp only [startMetric, toNat_wordScalar, ha, hmin, Timelength.value]

theorem updateMetric_eq :
    updateMetric acc res
      = ⟨max acc.above.value acc.below.value % 18446744073709551616,
        res.value % 18446744073709551616⟩ := by
  simp only [updateMetric, toNat_wordScalar, timelengthMax_value habove hbelow]

/-- A demand set by `Start` keeps its rank when `Update` sets it again, exactly if the smaller bound
is the larger one less what wraps. -/
theorem rank_kept_iff (uuid name : String) (domain : Int16) :
    ((Coordinator.start uuid name (startMetric acc res).accuracy domain).update
        (updateMetric acc res).accuracy).timeline.standing
        = (Coordinator.start uuid name (startMetric acc res).accuracy domain).timeline.standing
      ↔ max acc.above.value acc.below.value % 18446744073709551616
        = min acc.above.value acc.below.value := by
  rw [standing_update_iff, startMetric_eq habove hbelow, updateMetric_eq habove hbelow]

/-- **The two publish the same metric**, the exact one, exactly if the bounds are the same length
and neither it nor the resolution wraps. -/
theorem metric_exact_iff :
    (startMetric acc res = exactMetric acc res ∧ updateMetric acc res = exactMetric acc res
        ∧ ∀ uuid name domain,
          ((Coordinator.start uuid name (startMetric acc res).accuracy domain).update
              (updateMetric acc res).accuracy).timeline.standing
            = (Coordinator.start uuid name (startMetric acc res).accuracy domain).timeline.standing)
      ↔ acc.above = acc.below ∧ acc.above.value < 2 ^ 64 ∧ res.value < 2 ^ 64 := by
  have h0 := acc.above.value_nonneg
  have hres0 := res.value_nonneg
  simp only [rank_kept_iff habove hbelow]
  rw [startMetric_eq habove hbelow, updateMetric_eq habove hbelow]
  unfold exactMetric
  constructor
  · rintro ⟨hstart, hupdate, -⟩
    obtain ⟨hacc, hwrap⟩ := TimelineMetric.mk.inj hstart
    obtain ⟨hacc', -⟩ := TimelineMetric.mk.inj hupdate
    have hsame : acc.above.value = acc.below.value := by omega
    exact ⟨Timelength.value_inj habove hbelow hsame, by omega, by omega⟩
  · rintro ⟨hsame, hlt, hltRes⟩
    rw [hsame] at hlt h0 ⊢
    have hacc : acc.below.value % 18446744073709551616 = acc.below.value := Int.emod_eq_of_lt h0 hlt
    have hresol : res.value % 18446744073709551616 = res.value := Int.emod_eq_of_lt hres0 hltRes
    rw [max_self, min_self, hacc, hresol]
    exact ⟨rfl, rfl, fun _ _ _ => rfl⟩

end Metric

/-- A millisecond on both sides. -/
theorem metric_exact_ms :
    startMetric ⟨⟨0, 1000000000000000⟩, ⟨0, 1000000000000000⟩⟩ ⟨0, 1000000000⟩
      = updateMetric ⟨⟨0, 1000000000000000⟩, ⟨0, 1000000000000000⟩⟩ ⟨0, 1000000000⟩ := by
  obtain ⟨hstart, hupdate, -⟩ := (@metric_exact_iff ⟨⟨0, 1000000000000000⟩, ⟨0, 1000000000000000⟩⟩
    (by decide) (by decide) ⟨0, 1000000000⟩).2 ⟨rfl, by decide, by decide⟩
  exact hstart.trans hupdate.symm

/-- **The metric depends on who sets it.** Of one and two milliseconds `Start` publishes the one and
`Update` the two; of twenty seconds `Update` publishes 1.55. -/
theorem metric_depends :
    startMetric ⟨⟨0, 2000000000000000⟩, ⟨0, 1000000000000000⟩⟩ ⟨0, 1000000000⟩
        = ⟨1000000000000000, 1000000000⟩
      ∧ updateMetric ⟨⟨0, 2000000000000000⟩, ⟨0, 1000000000000000⟩⟩ ⟨0, 1000000000⟩
        = ⟨2000000000000000, 1000000000⟩
      ∧ startMetric ⟨⟨20, 0⟩, ⟨20, 0⟩⟩ ⟨0, 1000000000⟩ = ⟨20000000000000000000, 1000000000⟩
      ∧ updateMetric ⟨⟨20, 0⟩, ⟨20, 0⟩⟩ ⟨0, 1000000000⟩ = ⟨1553255926290448384, 1000000000⟩ := by
  decide

end Qot
