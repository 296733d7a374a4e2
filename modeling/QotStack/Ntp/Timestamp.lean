import QotStack.Lib.MachineInt

/-!
# QotStack — time stamps in a packet (`ntpclient.h`, `ntpclient.c`)

A packet carries a time as seconds since 1900 and a fraction of a second, each in a word of 32 bits.
The client keeps microseconds, and scales by `2 ^ 32 / 10 ^ 6` with shifts and small factors.

On the way out (`NTPFRAC`) that is good to less than a microsecond. On the way in (`USEC`) it is
not: the correction of `759` for each `2 ^ 26` of the fraction, which are `15625` microseconds, is
subtracted in one piece in the middle of them. So within such a segment of `15625` microseconds the
decoded time runs from `380` behind to `379` ahead, and falls back by `758` where the next one
begins. `ntp_timestamps_iff` says where it is right nevertheless, and which fractions it puts in the
wrong order.

The conversions between the order of bytes of host and packet undo each other and are left out.
-/

namespace Qot.Ntp

open MachineInt

structure NtpTime where
  integer : UInt32
  fraction : UInt32
  deriving DecidableEq, Repr

/-- `3600s*24h*(365days*70years+17days)` -/
def jan1970 : UInt32 := 0x83aa7e80

def ntpfrac (x : Int64) : Int64 := (4294 : Int64) * x + (((1981 : Int64) * x) >>> 11)

def usec (x : UInt32) : UInt32 := (x >>> 12) - (759 : UInt32) * (((x >>> 10) + 32768) >>> 16)

def mksec (ntpt : NtpTime) : UInt32 := ntpt.integer - jan1970

def mkusec (ntpt : NtpTime) : UInt32 := usec ntpt.fraction

def ttlusec (sec usec : UInt32) : Int64 :=
  sec.toUInt64.toInt64 * 1000000 + usec.toUInt64.toInt64

/-- The transmit time stamp that `send_packet` writes. -/
def sendPacketTime (tNow : Int64) : NtpTime where
  integer := (tNow / 1000000 + jan1970.toUInt64.toInt64).toUInt64.toUInt32
  fraction := (ntpfrac (tNow % 1000000)).toUInt64.toUInt32

/-- What `get_server_time` makes of a time stamp. -/
def serverTime (ntpt : NtpTime) : Int64 := ttlusec (mksec ntpt) (mkusec ntpt)

/-! ## The way in -/

/-- The number of the segment of `2 ^ 26` in which a fraction lies; the first one is cut in half. -/
def segment (x : Nat) : Nat := (x + 33554432) / 67108864

/-- The place in its segment, in units of `2 ^ 12`. -/
def place (x : Nat) : Nat := (x + 33554432) % 67108864 / 4096

/-- A segment is decoded as `16384` microseconds, and the next one begins after `15625`. -/
theorem toNat_usec (x : UInt32) :
    (usec x).toNat + 8192 = 15625 * segment x.toNat + place x.toNat := by
  have hx : x.toNat < 4294967296 := x.toNat_lt
  have hunits : (x >>> 12).toNat = x.toNat / 4096 := by
    rw [UInt32.toNat_shiftRight, Nat.shiftRight_eq_div_pow]
    rfl
  have hround : (x >>> 10).toNat = x.toNat / 1024 := by
    rw [UInt32.toNat_shiftRight, Nat.shiftRight_eq_div_pow]
    rfl
  have hsum : ((x >>> 10) + 32768).toNat = x.toNat / 1024 + 32768 := by
    rw [UInt32.toNat_add, hround]
    exact Nat.mod_eq_of_lt (by show x.toNat / 1024 + 32768 < 4294967296; omega)
  have hseg : (((x >>> 10) + 32768) >>> 16).toNat = segment x.toNat := by
    rw [UInt32.toNat_shiftRight, Nat.shiftRight_eq_div_pow, hsum]
    show (x.toNat / 1024 + 32768) / 65536 = (x.toNat + 33554432) / 67108864
    omega
  have hcorr : ((759 : UInt32) * (((x >>> 10) + 32768) >>> 16)).toNat = 759 * segment x.toNat := by
    rw [UInt32.toNat_mul, hseg]
    exact Nat.mod_eq_of_lt (by show 759 * ((x.toNat + 33554432) / 67108864) < 4294967296; omega)
  have hle : 759 * segment x.toNat ≤ x.toNat / 4096 := by
    unfold segment
    omega
  rw [usec, UInt32.toNat_sub_of_le _ _ (by rw [UInt32.le_iff_toNat_le, hcorr, hunits]; exact hle),
    hunits, hcorr]
  unfold segment place at *
  omega

/-- Fractions in order are decoded in order, except from the end of a segment to the beginning of
the next. -/
theorem usec_le_iff {a b : UInt32} (h : a ≤ b) :
    usec a ≤ usec b
      ↔ ¬ (segment b.toNat = segment a.toNat + 1 ∧ place b.toNat + 15625 < place a.toNat) := by
  have hab : a.toNat ≤ b.toNat := UInt32.le_iff_toNat_le.mp h
  have ha := toNat_usec a
  have hb := toNat_usec b
  have hpa : place a.toNat < 16384 := by
    unfold place
    omega
  have horder : segment a.toNat < segment b.toNat
      ∨ segment a.toNat = segment b.toNat ∧ place a.toNat ≤ place b.toNat := by
    unfold segment place
    omega
  rw [UInt32.le_iff_toNat_le]
  omega

/-! ## The way out -/

theorem toInt_ntpfrac {x : Int64} (hlow : 0 ≤ x.toInt) (hhigh : x.toInt < 1000000) :
    (ntpfrac x).toInt = 4294 * x.toInt + 1981 * x.toInt / 2048 := by
  have hprod : ((1981 : Int64) * x).toInt = 1981 * x.toInt :=
    toInt_mul_of_fits (show Fits64 (1981 * x.toInt) by omega)
  have hshift : (((1981 : Int64) * x) >>> 11).toInt = 1981 * x.toInt / 2048 := by
    rw [← hprod]
    exact toInt_shiftRight _ (show 11 < 64 by decide)
  have hscale : (4294 * x).toInt = 4294 * x.toInt :=
    toInt_mul_of_fits (show Fits64 (4294 * x.toInt) by omega)
  rw [ntpfrac, toInt_add_of_fits, hscale, hshift]
  rw [hscale, hshift]
  omega

theorem toNat_toUInt32_of_nonneg {v : Int64} (hlow : 0 ≤ v.toInt) :
    (v.toUInt64.toUInt32.toNat : Int) = v.toInt % 4294967296 := by
  rw [toNat_toUInt32]
  push_cast
  rw [toNat_toUInt64_of_nonneg hlow]

variable {t : Int64}

/-- The fraction of a time, as it is sent. -/
theorem toNat_sent_fraction (h : 0 ≤ t.toInt) :
    ((sendPacketTime t).fraction.toNat : Int)
      = 4294 * (t.toInt % 1000000) + 1981 * (t.toInt % 1000000) / 2048 := by
  have hrem : (t % 1000000).toInt = t.toInt % 1000000 := by
    rw [Int64.toInt_mod]
    exact Int.tmod_eq_emod_of_nonneg h
  have hfrac : (ntpfrac (t % 1000000)).toInt
      = 4294 * (t.toInt % 1000000) + 1981 * (t.toInt % 1000000) / 2048 := by
    rw [toInt_ntpfrac (by omega) (by omega), hrem]
  show ((ntpfrac (t % 1000000)).toUInt64.toUInt32.toNat : Int) = _
  rw [toNat_toUInt32_of_nonneg (by omega), hfrac]
  omega

/-- The seconds survive: the two additions modulo `2 ^ 32` undo each other. -/
theorem toNat_mksec_sent (h : 0 ≤ t.toInt) (hsec : t.toInt / 1000000 < 4294967296) :
    ((mksec (sendPacketTime t)).toNat : Int) = t.toInt / 1000000 := by
  have hquot : (t / 1000000).toInt = t.toInt / 1000000 := by
    rw [toInt_div_of_two_le (by decide)]
    exact Int.tdiv_eq_ediv_of_nonneg h
  have hsum : (t / 1000000 + jan1970.toUInt64.toInt64).toInt = t.toInt / 1000000 + 2208988800 := by
    rw [toInt_add_of_fits]
    · rw [hquot]
      rfl
    · rw [hquot]
      show Fits64 (t.toInt / 1000000 + 2208988800)
      omega
  have hword : ((sendPacketTime t).integer.toNat : Int)
      = (t.toInt / 1000000 + 2208988800) % 4294967296 := by
    rw [← hsum]
    exact toNat_toUInt32_of_nonneg (by omega)
  have hjan : jan1970.toNat = 2208988800 := rfl
  rw [mksec, UInt32.toNat_sub, hjan]
  push_cast
  omega

theorem toInt_ttlusec (sec usec : UInt32) :
    (ttlusec sec usec).toInt = sec.toNat * 1000000 + usec.toNat := by
  have hword : ∀ u : UInt32, u.toUInt64.toInt64.toInt = u.toNat := by
    intro u
    have hu : u.toNat < 4294967296 := u.toNat_lt
    rw [toInt_toInt64, UInt32.toNat_toUInt64]
    exact wrap64_of_fits (by omega)
  have hsec : sec.toNat < 4294967296 := sec.toNat_lt
  have husec : usec.toNat < 4294967296 := usec.toNat_lt
  have hprod : (sec.toUInt64.toInt64 * 1000000).toInt = sec.toNat * 1000000 := by
    rw [← hword sec]
    apply toInt_mul_of_fits
    rw [hword]
    show Fits64 (sec.toNat * 1000000)
    omega
  rw [ttlusec, toInt_add_of_fits, hprod, hword]
  rw [hprod, hword]
  omega

theorem toInt_serverTime_sent (h : 0 ≤ t.toInt) (hsec : t.toInt / 1000000 < 4294967296) :
    (serverTime (sendPacketTime t)).toInt
      = t.toInt / 1000000 * 1000000 + (usec (sendPacketTime t).fraction).toNat := by
  rw [serverTime, toInt_ttlusec, toNat_mksec_sent h hsec]
  rfl

/-- A time `v` microseconds from the middle of its segment is decoded as about `1.048576 * v`
microseconds from there. -/
theorem place_sent {u f : Nat} (hu : u < 1000000) (hf : f = 4294 * u + 1981 * u / 2048) :
    ∃ v p : Int, u = 15625 * segment f + v ∧ place f = p + 8192 ∧ -7812 ≤ v ∧ v ≤ 7812
      ∧ (8796093 * v - 24255) / 8388608 ≤ p ∧ p ≤ 8796093 * v / 8388608 := by
  have hseg : segment f = (2 * u + 15625) / 31250 := by
    unfold segment
    omega
  have hplace : (place f : Int) = f / 4096 - 16384 * segment f + 8192 := by
    unfold place segment
    omega
  refine ⟨(u : Int) - 15625 * segment f, f / 4096 - 16384 * segment f, by omega, hplace, by omega,
    by omega, ?_, ?_⟩
  · omega
  · omega

/-! ## There and back -/

/-- A time that is sent and read again, by its distance from the middle of a segment. -/
theorem serverTime_sent (h : 0 ≤ t.toInt) (hsec : t.toInt / 1000000 < 4294967296) :
    ∃ v p : Int, (∃ k : Nat, t.toInt % 1000000 = 15625 * k + v) ∧ -7812 ≤ v ∧ v ≤ 7812
      ∧ (serverTime (sendPacketTime t)).toInt - t.toInt = p - v
      ∧ (8796093 * v - 24255) / 8388608 ≤ p ∧ p ≤ 8796093 * v / 8388608 := by
  have hfrac := toNat_sent_fraction h
  have hread := toInt_serverTime_sent h hsec
  have husec := toNat_usec (sendPacketTime t).fraction
  generalize (sendPacketTime t).fraction = x at hfrac hread husec
  obtain ⟨v, p, hu, hplace, hlow, hhigh, hbelow, habove⟩ :=
    @place_sent (t.toInt % 1000000).toNat x.toNat (by omega) (by omega)
  refine ⟨v, p, ⟨segment x.toNat, by omega⟩, hlow, hhigh, ?_, hbelow, habove⟩
  omega

theorem near_middle_iff {v : Int} (hlow : -7812 ≤ v) (hhigh : v ≤ 7812) :
    (v + 20) % 15625 ≤ 61 ↔ -20 ≤ v ∧ v ≤ 41 := by
  omega

/-- A time survives the packet within a microsecond exactly if its microseconds are at most `20`
before or `41` behind a multiple of `15625`; and the order of two fractions survives unless the
second one is at the beginning of the segment after the one that the first is at the end of. -/
theorem ntp_timestamps_iff (t : Int64) (h : 0 ≤ t.toInt) (hsec : t.toInt / 1000000 < 4294967296)
    (a b : UInt32) (hab : a ≤ b) :
    (|(serverTime (sendPacketTime t)).toInt - t.toInt| ≤ 1 ↔ (t.toInt % 1000000 + 20) % 15625 ≤ 61)
      ∧ (usec a ≤ usec b
        ↔ ¬ (segment b.toNat = segment a.toNat + 1 ∧ place b.toNat + 15625 < place a.toNat)) := by
  refine ⟨?_, usec_le_iff hab⟩
  obtain ⟨v, p, ⟨k, hk⟩, hlow, hhigh, herr, hbelow, habove⟩ := serverTime_sent h hsec
  have hrem : (t.toInt % 1000000 + 20) % 15625 = (v + 20) % 15625 := by omega
  rw [herr, hrem, near_middle_iff hlow hhigh, abs_le]
  omega

/-- A second and thirty microseconds after a full hour. -/
theorem ntp_timestamps_iff_full_second :
    |(serverTime (sendPacketTime 3601000030)).toInt - 3601000030| ≤ 1 ∧ usec 7 ≤ usec 4096 :=
  ⟨(ntp_timestamps_iff 3601000030 (by decide) (by decide) 7 4096 (by decide)).1.mpr (by decide),
    (ntp_timestamps_iff 3601000030 (by decide) (by decide) 7 4096 (by decide)).2.mpr (by decide)⟩

/-- In the middle between two multiples of `15625` a time comes back `379` microseconds late, and
the next fraction is decoded as `758` microseconds before this one. -/
theorem ntp_timestamps_off :
    (serverTime (sendPacketTime 7812)).toInt - (7812 : Int64).toInt = 379
      ∧ (33554431 : UInt32) ≤ 33554432 ∧ usec 33554432 < usec 33554431 := by
  decide

end Qot.Ntp
