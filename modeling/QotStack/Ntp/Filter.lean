import QotStack.Lib.MachineInt
import QotStack.Lib.SelectionSort

/-!
# QotStack — the responses of time servers (`ntpclient.c`, `algorithm.c`)

An exchange with a time server gives four time stamps: `t1` when the request was sent, `t2` when the
server received it, `t3` when it answered, and `t4` when the answer came in. From them the client
computes the delay on the way and the offset of the server's clock (`get_server_time`), and from a
batch of responses an interval around each offset (`filter`): half the delay to the reference clock,
and what the batch says about the dispersion.

Everything is in microseconds, in words of 64 bits. What the client takes from the packet through
floating point, and the square root of the jitter, are arbitrary.

`filter_contains_offset` is what the intervals are for: the one of a correct server contains the
true offset. Half the delay covers the asymmetry of the two ways; the halving of the offset rounds,
and the first response of the batch adds the microsecond that makes up for it.
-/

namespace Qot.Ntp

open MachineInt SelectionSort

structure Response where
  stratum : Int32
  precision : Int32
  rootDelay : Int64
  rootDisp : Int64
  delay : Int64
  offset : Int64
  disp : Int64
  deriving DecidableEq, Repr

structure Interval where
  stratum : Int32
  offset : Int64
  low : Int64
  up : Int64
  rootDist : Int64
  deriving DecidableEq, Repr

/-- The minimum dispersion. -/
def minDisp : Int64 := 1000

/-- What `get_server_time` computes from the time stamps. -/
def getServerTime (resp : Response) (t1 t2 t3 t4 : Int64) : Response :=
  { resp with
    delay := (t2 - t1) + (t4 - t3)
    offset := ((t2 - t1) + (t3 - t4)) / 2 }

/-! ## The filter -/

def sortResponses (respList : List Response) : List Response :=
  selectionSort (·.delay.toInt) respList

/-- The loop over the sorted responses from position `i` on: each counts half of the one before. -/
def peerDisp (acc : Int64) : Nat → List Response → Int64
  | _, [] => acc
  | i, r :: rest => peerDisp (acc + (r.disp >>> Int64.ofNat (i + 1))) (i + 1) rest

/-- The sum of the squared differences to the first offset. -/
def offsetSum (respList : List Response) : Int64 :=
  match respList with
  | [] => 0
  | first :: _ =>
    respList.foldl (fun sum r => sum + (r.offset - first.offset) * (r.offset - first.offset)) 0

def jitter (sqrt : Int64 → Int64) (respList : List Response) : Int64 :=
  sqrt (offsetSum respList / Int64.ofNat respList.length)

def rootInterval (peerDisp jitter : Int64) (r : Response) : Interval :=
  let distance := r.rootDelay + r.delay
  let rootDist := (if minDisp > distance then minDisp else distance) / 2 + peerDisp + jitter
  ⟨r.stratum, r.offset, r.offset - rootDist, r.offset + rootDist, rootDist⟩

def filter (sqrt : Int64 → Int64) (respList : List Response) : List Interval :=
  let respList := sortResponses respList
  respList.map (rootInterval (peerDisp 0 0 respList) (jitter sqrt respList))

/-! ## What the words stand for -/

/-- The dispersion of the responses from position `i` on. -/
def peerDispOf : Nat → List Response → Int
  | _, [] => 0
  | i, r :: rest => r.disp.toInt / 2 ^ (i + 1) + peerDispOf (i + 1) rest

/-- The distance to the reference clock. -/
def rootDistOf (peerDisp jitter : Int) (r : Response) : Int :=
  max 1000 (r.rootDelay.toInt + r.delay.toInt) / 2 + peerDisp + jitter

/-- No step of the exchange overflows. -/
structure ExchangeFits (t1 t2 t3 t4 : Int64) : Prop where
  forth : Fits64 (t2.toInt - t1.toInt)
  back : Fits64 (t4.toInt - t3.toInt)
  back_neg : Fits64 (t3.toInt - t4.toInt)
  delay : Fits64 ((t2.toInt - t1.toInt) + (t4.toInt - t3.toInt))
  twice : Fits64 ((t2.toInt - t1.toInt) + (t3.toInt - t4.toInt))

/-- No step to the interval of `r` overflows. -/
structure DistanceFits (peerDisp jitter : Int) (r : Response) : Prop where
  peer : Fits64 peerDisp
  distance : Fits64 (r.rootDelay.toInt + r.delay.toInt)
  half : Fits64 (max 1000 (r.rootDelay.toInt + r.delay.toInt) / 2 + peerDisp)
  rootDist : Fits64 (rootDistOf peerDisp jitter r)
  low : Fits64 (r.offset.toInt - rootDistOf peerDisp jitter r)
  up : Fits64 (r.offset.toInt + rootDistOf peerDisp jitter r)

variable {respList : List Response}

theorem peerDispOf_nonneg (h : ∀ r ∈ respList, 0 ≤ r.disp.toInt) (i : Nat) :
    0 ≤ peerDispOf i respList := by
  induction respList generalizing i with
  | nil => exact le_refl 0
  | cons r rest ih =>
    have hrest := ih (fun r' hr' => h r' (List.mem_cons_of_mem _ hr')) (i + 1)
    have hterm : 0 ≤ r.disp.toInt / 2 ^ (i + 1) :=
      Int.ediv_nonneg (h r List.mem_cons_self) (by positivity)
    unfold peerDispOf
    omega

/-- The first response is counted with half its dispersion. -/
theorem one_le_peerDispOf (hne : respList ≠ []) (h : ∀ r ∈ respList, 2 ≤ r.disp.toInt) :
    1 ≤ peerDispOf 0 respList := by
  cases respList with
  | nil => exact absurd rfl hne
  | cons r rest =>
    have hfirst := h r List.mem_cons_self
    have htail : ∀ r' ∈ rest, 0 ≤ r'.disp.toInt := by
      intro r' hr'
      have := h r' (List.mem_cons_of_mem _ hr')
      omega
    have hrest := peerDispOf_nonneg htail (0 + 1)
    unfold peerDispOf
    omega

/-- The loop adds up what it stands for: the terms are not negative, so that no sum on the way is
larger than the last one. -/
theorem toInt_peerDisp {i : Nat} {acc : Int64} (hacc : 0 ≤ acc.toInt)
    (h : ∀ r ∈ respList, 0 ≤ r.disp.toInt) (hlength : i + respList.length < 64)
    (hfits : Fits64 (acc.toInt + peerDispOf i respList)) :
    (peerDisp acc i respList).toInt = acc.toInt + peerDispOf i respList := by
  induction respList generalizing i acc with
  | nil => simp [peerDisp, peerDispOf]
  | cons r rest ih =>
    have hdisp := h r List.mem_cons_self
    have htail : ∀ r' ∈ rest, 0 ≤ r'.disp.toInt := fun r' hr' => h r' (List.mem_cons_of_mem _ hr')
    have hrest := peerDispOf_nonneg htail (i + 1)
    rw [List.length_cons] at hlength
    have hshift := toInt_shiftRight r.disp (k := i + 1) (by omega)
    have hterm : 0 ≤ r.disp.toInt / 2 ^ (i + 1) := Int.ediv_nonneg hdisp (by positivity)
    unfold peerDispOf at hfits ⊢
    unfold peerDisp
    generalize r.disp.toInt / 2 ^ (i + 1) = term at hfits hshift hterm ⊢
    have hsum : (acc + (r.disp >>> Int64.ofNat (i + 1))).toInt = acc.toInt + term := by
      rw [toInt_add_of_fits (by rw [hshift]; omega), hshift]
    rw [ih (by omega) htail (by omega) (by rw [hsum]; omega), hsum]
    omega

theorem rootInterval_values {peer jit : Int64} {r : Response}
    (h : DistanceFits peer.toInt jit.toInt r) :
    (rootInterval peer jit r).low.toInt = r.offset.toInt - rootDistOf peer.toInt jit.toInt r
      ∧ (rootInterval peer jit r).up.toInt
        = r.offset.toInt + rootDistOf peer.toInt jit.toInt r := by
  have hmin : minDisp.toInt = 1000 := rfl
  have htwo : (2 : Int64).toInt = 2 := rfl
  have hdistance := toInt_add_of_fits h.distance
  have hmax : (if minDisp > r.rootDelay + r.delay then minDisp else r.rootDelay + r.delay).toInt
      = max 1000 (r.rootDelay.toInt + r.delay.toInt) := by
    simp only [gt_iff_lt, Int64.lt_iff_toInt_lt, hdistance, hmin]
    split <;> omega
  have hhalf : ((if minDisp > r.rootDelay + r.delay then minDisp
    else r.rootDelay + r.delay) / 2).toInt
      = max 1000 (r.rootDelay.toInt + r.delay.toInt) / 2 := by
    rw [toInt_div_of_two_le (by decide), hmax, htwo]
    exact Int.tdiv_eq_ediv_of_nonneg (by omega)
  simp only [rootInterval]
  generalize (if minDisp > r.rootDelay + r.delay then minDisp else r.rootDelay + r.delay) / 2
    = half at hhalf
  have hsum : (half + peer).toInt
      = max 1000 (r.rootDelay.toInt + r.delay.toInt) / 2 + peer.toInt := by
    rw [toInt_add_of_fits (hhalf ▸ h.half), hhalf]
  have hdist : (half + peer + jit).toInt = rootDistOf peer.toInt jit.toInt r := by
    rw [toInt_add_of_fits (hsum ▸ h.rootDist), hsum]
    rfl
  refine ⟨?_, ?_⟩
  · rw [toInt_sub_of_fits (hdist ▸ h.low), hdist]
  · rw [toInt_add_of_fits (hdist ▸ h.up), hdist]

/-! ## A correct server -/

/-- The delay is that of both ways; twice the offset is off by their difference. -/
theorem getServerTime_values {t1 t2 t3 t4 : Int64} (h : ExchangeFits t1 t2 t3 t4)
    (resp : Response) :
    (getServerTime resp t1 t2 t3 t4).delay.toInt = (t2.toInt - t1.toInt) + (t4.toInt - t3.toInt)
      ∧ (getServerTime resp t1 t2 t3 t4).offset.toInt
        = ((t2.toInt - t1.toInt) + (t3.toInt - t4.toInt)).tdiv 2 := by
  have htwo : (2 : Int64).toInt = 2 := rfl
  have hforth := toInt_sub_of_fits h.forth
  have hback := toInt_sub_of_fits h.back
  have hneg := toInt_sub_of_fits h.back_neg
  refine ⟨?_, ?_⟩
  · show ((t2 - t1) + (t4 - t3)).toInt = _
    rw [toInt_add_of_fits (by rw [hforth, hback]; exact h.delay), hforth, hback]
  · show (((t2 - t1) + (t3 - t4)) / 2).toInt = _
    rw [toInt_div_of_two_le (by decide), toInt_add_of_fits (by rw [hforth, hneg]; exact h.twice),
      hforth, hneg, htwo]

/-- Half the delay and a microsecond cover the asymmetry of the two ways and the rounding. -/
theorem offset_within {x d1 d2 offset rootDist : Int} (hd1 : 0 ≤ d1) (hd2 : 0 ≤ d2)
    (hoffset : offset = (2 * x + d1 - d2).tdiv 2) (hdist : (d1 + d2) / 2 + 1 ≤ rootDist) :
    offset - rootDist ≤ x ∧ x ≤ offset + rootDist := by
  rw [Int.tdiv_eq_ediv] at hoffset
  split at hoffset
  · omega
  · rw [show Int.sign 2 = 1 from rfl] at hoffset
    omega

/-- **The interval of a correct server contains its offset**, wherever the sort puts the response,
and whatever the other responses are. -/
theorem filter_contains_offset (sqrt : Int64 → Int64) (hsqrt : ∀ v, 0 ≤ (sqrt v).toInt)
    (respList : List Response) (hlength : respList.length ≤ 60)
    (hroot : ∀ r ∈ respList, 0 ≤ r.rootDelay.toInt) (hdisp : ∀ r ∈ respList, 2 ≤ r.disp.toInt)
    (resp : Response) (t1 t2 t3 t4 : Int64) {r : Response} (hr : getServerTime resp t1 t2 t3 t4 = r)
    (hmem : r ∈ respList) (x d1 d2 : Int) (hd1 : 0 ≤ d1) (hd2 : 0 ≤ d2)
    (ht2 : t2.toInt = t1.toInt + x + d1) (ht4 : t4.toInt = t3.toInt - x + d2)
    (hexchange : ExchangeFits t1 t2 t3 t4)
    (hfits : DistanceFits (peerDispOf 0 (sortResponses respList))
      (jitter sqrt (sortResponses respList)).toInt r) :
    (∃ i : Nat, (sortResponses respList)[i]? = some r)
      ∧ ∀ i : Nat, (sortResponses respList)[i]? = some r →
        ∃ interval : Interval, (filter sqrt respList)[i]? = some interval
          ∧ interval.low.toInt ≤ x ∧ x ≤ interval.up.toInt := by
  have hperm : (sortResponses respList).Perm respList := perm_selectionSort respList
  have hmem' : r ∈ sortResponses respList := hperm.mem_iff.2 hmem
  have hdisp' : ∀ r' ∈ sortResponses respList, 2 ≤ r'.disp.toInt :=
    fun r' hr' => hdisp r' (hperm.mem_iff.1 hr')
  refine ⟨List.mem_iff_getElem?.1 hmem', ?_⟩
  intro i hi
  -- the dispersion of the batch, which is at least the microsecond the rounding takes
  have hpeer1 := one_le_peerDispOf (List.ne_nil_of_mem hmem') hdisp'
  have hpeer : (peerDisp 0 0 (sortResponses respList)).toInt
      = peerDispOf 0 (sortResponses respList) := by
    have hlen := hperm.length_eq
    rw [toInt_peerDisp (le_refl 0) (fun r' hr' => by have := hdisp' r' hr'; omega) (by omega)
      (by rw [Int64.toInt_zero, Int.zero_add]; exact hfits.peer), Int64.toInt_zero, Int.zero_add]
  rw [← hpeer] at hfits hpeer1
  obtain ⟨hlow, hup⟩ := rootInterval_values hfits
  refine ⟨rootInterval (peerDisp 0 0 (sortResponses respList))
    (jitter sqrt (sortResponses respList)) r, ?_, ?_⟩
  · unfold filter
    rw [List.getElem?_map, hi]
    rfl
  · rw [hlow, hup]
    obtain ⟨hdelay, hoffset⟩ := getServerTime_values hexchange resp
    rw [hr] at hdelay hoffset
    have hjitter :=
      hsqrt (offsetSum (sortResponses respList) / Int64.ofNat (sortResponses respList).length)
    have hrootDelay := hroot r hmem
    apply offset_within hd1 hd2
    · rw [hoffset]
      congr 1
      omega
    · unfold rootDistOf jitter
      omega

/-- A response of a server that is 3 s behind, with 700 µs on the way there and 301 µs back. -/
def behindResponse : Response :=
  getServerTime ⟨2, -10, 500, 0, 0, 0, 976⟩ 5000000 2000700 2000900 5001201

/-- Another server, with a shorter delay and any offset. -/
def otherResponse : Response := ⟨1, -10, 0, 0, 200, 123456789, 2⟩

/-- The root the code takes, cut to an integer. -/
def rootOf (v : Int64) : Int64 := Int64.ofNat v.toInt.toNat.sqrt

theorem rootOf_nonneg (v : Int64) : 0 ≤ (rootOf v).toInt := by
  have hle := v.toInt.toNat.sqrt_le_self
  have hlt := v.toInt_lt
  rw [rootOf, Int64.toInt_ofNat_of_lt (by omega)]
  exact Int.natCast_nonneg _

theorem jitter_behind :
    jitter rootOf (sortResponses [behindResponse, otherResponse]) = 89418311 := by
  have hsum : offsetSum (sortResponses [behindResponse, otherResponse]) / 2
      = 7995634450757460 := by decide
  have hroot : Nat.sqrt 7995634450757460 = 89418311 :=
    (Nat.eq_sqrt'.mpr ⟨by norm_num, by norm_num⟩).symm
  show rootOf (offsetSum (sortResponses [behindResponse, otherResponse]) / 2) = _
  rw [hsum, rootOf]
  show Int64.ofNat (Nat.sqrt 7995634450757460) = _
  rw [hroot]
  rfl

theorem filter_contains_behind :
    ∃ interval ∈ filter rootOf [behindResponse, otherResponse],
      interval.low.toInt ≤ -3000000 ∧ -3000000 ≤ interval.up.toInt := by
  obtain ⟨⟨i, hi⟩, hall⟩ := filter_contains_offset rootOf rootOf_nonneg
    [behindResponse, otherResponse] (by decide) (by decide) (by decide)
    ⟨2, -10, 500, 0, 0, 0, 976⟩ 5000000 2000700 2000900 5001201 (r := behindResponse) rfl
    (by decide) (-3000000) 700 301 (by decide) (by decide) (by decide) (by decide)
    (by constructor <;> decide) (by rw [jitter_behind]; constructor <;> decide)
  obtain ⟨interval, hget, hcontains⟩ := hall i hi
  exact ⟨interval, List.mem_of_getElem? hget, hcontains⟩

end Qot.Ntp
