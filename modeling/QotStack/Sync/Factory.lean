import QotStack.Lib.Decimal
import QotStack.Sync.Window

/-!
# QotStack — the choice between PTP and NTP (`Sync.cpp`)

A node synchronises by PTP if it has a private address and is on an Ethernet interface, and by NTP
otherwise. Whether an address is private is found by masks: `10.0.0.0`, `172.16.0.0` and
`192.168.0.0` are written as if they were network masks, and an address is taken for private if it
has all the bits of one of them. The addresses of the three private networks have. But so have many
others, beginning with `11.0.0.0`: `private_addresses_iff` says that those are the only ones on
which the test is wrong.
-/

namespace Qot

open Decimal

/-! ## The source -/

/-- An `int` as a word. A shift to the left gives the same bits before and after. -/
def wordOf (v : Int) : UInt32 := (Int32.ofInt v).toUInt32

/-- `sscanf` with the format `%d.%d.%d.%d`, if it makes all four conversions. -/
def scanQuad (ip : List Char) : Option (Int × Int × Int × Int) := do
  let (a, ip) ← scanInt ip
  let ip ← scanChar '.' ip
  let (b, ip) ← scanInt ip
  let ip ← scanChar '.' ip
  let (c, ip) ← scanInt ip
  let ip ← scanChar '.' ip
  let (d, _) ← scanInt ip
  return (a, b, c, d)

/-- Convert string into 32 bit IP address. -/
def ipToUint (ip : List Char) : UInt32 :=
  match scanQuad ip with
  | none => 0
  | some (a, b, c, d) => wordOf a <<< 24 ||| wordOf b <<< 16 ||| wordOf c <<< 8 ||| wordOf d

def classAMask : UInt32 := 0x0A000000
def classBMask : UInt32 := 0xAC100000
def classCMask : UInt32 := 0xC0A80000

/-- Check if the IP address is in private / public subnet. -/
def isIPprivate (ip : List Char) : Bool :=
  let ipAddr := ipToUint ip
  ipAddr &&& classAMask = classAMask ∨ ipAddr &&& classBMask = classBMask
    ∨ ipAddr &&& classCMask = classCMask

inductive SyncAlgorithm where
  | ptp18
  | ntp18
  deriving DecidableEq, Repr

/-- What `Sync::Factory` makes: an algorithm on an interface, with the parameters of its uncertainty
calculation. -/
structure Sync where
  algorithm : SyncAlgorithm
  iface : List Char
  config : UncertaintyParams
  deriving DecidableEq, Repr

def Sync.factory (address iface : List Char) : Sync :=
  let config : UncertaintyParams :=
    ⟨50, 50, 999999 / 1000000, 999999 / 1000000, 999999 / 1000000, 999999 / 1000000⟩
  if isIPprivate address ∧ iface.take 3 = ['e', 't', 'h'] then ⟨.ptp18, iface, config⟩
  else ⟨.ntp18, iface, config⟩

/-! ## Addresses -/

/-- A part of an address. -/
structure Octet where
  numeral : Numeral
  le : numeral.value ≤ 255

/-- An address in dotted notation. -/
structure DottedQuad where
  a : Octet
  b : Octet
  c : Octet
  d : Octet

def Octet.value (o : Octet) : Nat := o.numeral.value

theorem Octet.value_le (o : Octet) : o.value ≤ 255 := o.le

namespace DottedQuad

def text (q : DottedQuad) : List Char :=
  q.a.numeral.digits ++ '.' :: (q.b.numeral.digits ++ '.' :: (q.c.numeral.digits
    ++ '.' :: q.d.numeral.digits))

def addr (q : DottedQuad) : Nat :=
  2 ^ 24 * q.a.value + (2 ^ 16 * q.b.value + (2 ^ 8 * q.c.value + q.d.value))

/-- The address is in a network, given by its first address and the length of its prefix. -/
def InNet (q : DottedQuad) (net length : Nat) : Prop :=
  q.addr / 2 ^ (32 - length) = net / 2 ^ (32 - length)

/-- In `10.0.0.0/8`, `172.16.0.0/12` or `192.168.0.0/16`. -/
def Private (q : DottedQuad) : Prop :=
  q.InNet 0x0A000000 8 ∨ q.InNet 0xAC100000 12 ∨ q.InNet 0xC0A80000 16

/-- The first two octets have the bits of those of a private network. -/
def HasBits (q : DottedQuad) : Prop :=
  q.a.value &&& 10 = 10 ∨ q.a.value &&& 172 = 172 ∧ q.b.value &&& 16 = 16
    ∨ q.a.value &&& 192 = 192 ∧ q.b.value &&& 168 = 168

theorem scanQuad_text (q : DottedQuad) :
    scanQuad q.text = some ((q.a.value : Int), (q.b.value : Int), (q.c.value : Int),
      (q.d.value : Int)) := by
  have hdot : ∀ (o : Octet) (rest : List Char),
      scanInt (o.numeral.digits ++ '.' :: rest) = some ((o.value : Int), '.' :: rest) := by
    intro o rest
    apply scanInt_numeral
    rintro _ ⟨⟩
    rfl
  have hlast : scanInt q.d.numeral.digits = some ((q.d.value : Int), []) := by
    have h := scanInt_numeral q.d.numeral (show ∀ c, ([] : List Char).head? = some c → _ from nofun)
    rwa [List.append_nil] at h
  have hchar : ∀ rest, scanChar '.' ('.' :: rest) = some rest := fun _ => rfl
  simp only [scanQuad, text, hdot, hchar, hlast, Option.bind_eq_bind, Option.bind_some,
    Option.pure_def]

theorem toNat_wordOf {n : Nat} (h : n ≤ 255) : (wordOf n).toNat = n := by
  show (Int32.ofInt n).toBitVec.toNat = n
  rw [Int32.toBitVec_ofInt, BitVec.toNat_ofInt]
  omega

/-- A number has the bits of another one if both its parts have. -/
theorem land_two_pow_mul_add {k a b p q : Nat} (hb : b < 2 ^ k) (hq : q < 2 ^ k) :
    (2 ^ k * a + b) &&& (2 ^ k * p + q) = 2 ^ k * p + q ↔ a &&& p = p ∧ b &&& q = q := by
  have hbq : b &&& q < 2 ^ k := Nat.and_lt_two_pow b hq
  have hand : (2 ^ k * a + b) &&& (2 ^ k * p + q) = 2 ^ k * (a &&& p) + (b &&& q) := by
    apply Nat.eq_of_testBit_eq
    intro i
    rw [Nat.testBit_and, Nat.testBit_two_pow_mul_add _ hb, Nat.testBit_two_pow_mul_add _ hq,
      Nat.testBit_two_pow_mul_add _ hbq]
    split <;> rw [Nat.testBit_and]
  rw [hand]
  constructor
  · intro h
    have hlow := congrArg (· % 2 ^ k) h
    have hhigh := congrArg (· / 2 ^ k) h
    simp only [Nat.mul_add_mod, Nat.mod_eq_of_lt hbq, Nat.mod_eq_of_lt hq] at hlow
    simp only [Nat.mul_add_div (Nat.two_pow_pos k), Nat.div_eq_of_lt hbq,
      Nat.div_eq_of_lt hq] at hhigh
    exact ⟨hhigh, hlow⟩
  · rintro ⟨hhigh, hlow⟩
    rw [hhigh, hlow]

theorem toNat_shiftLeft_wordOf {n : Nat} (h : n ≤ 255) {k : UInt32} (hk : k.toNat ≤ 24) :
    (wordOf n <<< k).toNat = 2 ^ k.toNat * n := by
  have hpow : 2 ^ k.toNat ≤ 2 ^ 24 := Nat.pow_le_pow_right (by decide) hk
  have hlt : n * 2 ^ k.toNat < 2 ^ 32 :=
    calc n * 2 ^ k.toNat ≤ 255 * 2 ^ 24 := Nat.mul_le_mul h hpow
      _ < 2 ^ 32 := by decide
  rw [UInt32.toNat_shiftLeft, toNat_wordOf h, Nat.mod_eq_of_lt (show k.toNat < 32 by omega),
    Nat.shiftLeft_eq, Nat.mod_eq_of_lt hlt, Nat.mul_comm]

theorem toNat_ipToUint (q : DottedQuad) : (ipToUint q.text).toNat = q.addr := by
  have hb := q.b.value_le
  have hc := q.c.value_le
  have hd := q.d.value_le
  rw [ipToUint, scanQuad_text]
  simp only [UInt32.toNat_or]
  rw [toNat_shiftLeft_wordOf q.a.value_le (by decide),
    toNat_shiftLeft_wordOf q.b.value_le (by decide),
    toNat_shiftLeft_wordOf q.c.value_le (by decide), toNat_wordOf hd]
  show 2 ^ 24 * q.a.value ||| 2 ^ 16 * q.b.value ||| 2 ^ 8 * q.c.value ||| q.d.value = q.addr
  rw [addr, Nat.two_pow_add_eq_or_of_lt (show _ < 2 ^ 24 by omega),
    Nat.two_pow_add_eq_or_of_lt (show _ < 2 ^ 16 by omega),
    Nat.two_pow_add_eq_or_of_lt (show _ < 2 ^ 8 by omega), Nat.or_assoc, Nat.or_assoc]

/-- A mask by its first two octets. -/
theorem land_addr_iff (q : DottedQuad) {mask : UInt32} {a b : Nat}
    (hmask : mask.toNat = 2 ^ 24 * a + 2 ^ 16 * b) (hb : b ≤ 255) :
    ipToUint q.text &&& mask = mask ↔ q.a.value &&& a = a ∧ q.b.value &&& b = b := by
  have hqb := q.b.value_le
  have hqc := q.c.value_le
  have hqd := q.d.value_le
  have hlow : (2 ^ 16 * q.b.value + (2 ^ 8 * q.c.value + q.d.value)) &&& (2 ^ 16 * b + 0)
      = 2 ^ 16 * b + 0
      ↔ q.b.value &&& b = b ∧ (2 ^ 8 * q.c.value + q.d.value) &&& 0 = 0 :=
    land_two_pow_mul_add (by omega) (by omega)
  rw [← UInt32.toNat_inj, UInt32.toNat_and, toNat_ipToUint, hmask, addr,
    land_two_pow_mul_add (show _ < 2 ^ 24 by omega) (show _ < 2 ^ 24 by omega)]
  rw [Nat.add_zero] at hlow
  rw [hlow]
  simp

theorem isIPprivate_iff (q : DottedQuad) : isIPprivate q.text = true ↔ q.HasBits := by
  simp only [isIPprivate, decide_eq_true_eq]
  rw [land_addr_iff q (show classAMask.toNat = 2 ^ 24 * 10 + 2 ^ 16 * 0 from rfl) (by decide),
    land_addr_iff q (show classBMask.toNat = 2 ^ 24 * 172 + 2 ^ 16 * 16 from rfl) (by decide),
    land_addr_iff q (show classCMask.toNat = 2 ^ 24 * 192 + 2 ^ 16 * 168 from rfl) (by decide)]
  simp [HasBits]

theorem private_iff (q : DottedQuad) :
    q.Private ↔ q.a.value = 10 ∨ q.a.value = 172 ∧ 16 ≤ q.b.value ∧ q.b.value ≤ 31
      ∨ q.a.value = 192 ∧ q.b.value = 168 := by
  have hb := q.b.value_le
  have hc := q.c.value_le
  have hd := q.d.value_le
  unfold Private InNet addr
  norm_num
  omega

theorem hasBits_of_private {q : DottedQuad} (h : q.Private) : q.HasBits := by
  have hclassB : ∀ b ≤ 31, 16 ≤ b → b &&& 16 = 16 := by decide
  rcases (private_iff q).mp h with ha | ⟨ha, hlow, hhigh⟩ | ⟨ha, hb⟩
  · exact Or.inl (by rw [ha, Nat.and_self])
  · exact Or.inr (Or.inl ⟨by rw [ha, Nat.and_self], hclassB _ hhigh hlow⟩)
  · exact Or.inr (Or.inr ⟨by rw [ha, Nat.and_self], by rw [hb, Nat.and_self]⟩)

theorem factory_algorithm_iff (q : DottedQuad) (iface : List Char) :
    (Sync.factory q.text iface).algorithm = .ptp18
      ↔ q.HasBits ∧ iface.take 3 = ['e', 't', 'h'] := by
  rw [← isIPprivate_iff]
  unfold Sync.factory
  extract_lets
  split
  · next h => simpa using h
  · next h => simpa using h

/-- The test is right on an address, and the choice of the algorithm follows its class on every
interface, exactly if the address is private or has not the bits of a private one. -/
theorem private_addresses_iff (q : DottedQuad) :
    ((isIPprivate q.text = true ↔ q.Private) ↔ (q.HasBits → q.Private))
      ∧ ((∀ iface : List Char, (Sync.factory q.text iface).algorithm = .ptp18
            ↔ q.Private ∧ iface.take 3 = ['e', 't', 'h'])
        ↔ (q.HasBits → q.Private)) := by
  refine ⟨?_, ?_⟩
  · rw [isIPprivate_iff]
    exact ⟨fun h => h.mp, fun h => ⟨h, hasBits_of_private⟩⟩
  · simp only [factory_algorithm_iff]
    constructor
    · intro h hbits
      exact ((h ['e', 't', 'h']).mp ⟨hbits, rfl⟩).1
    · intro h iface
      exact and_congr_left fun _ => ⟨h, hasBits_of_private⟩

/-- `11.0.0.1`, a public address. -/
def eleven : DottedQuad where
  a := ⟨⟨['1', '1'], by decide, by simp⟩, by decide⟩
  b := ⟨⟨['0'], by decide, by simp⟩, by decide⟩
  c := ⟨⟨['0'], by decide, by simp⟩, by decide⟩
  d := ⟨⟨['1'], by decide, by simp⟩, by decide⟩

/-- It is taken for a private one, and the node synchronises by PTP. -/
theorem private_addresses_eleven :
    eleven.text = "11.0.0.1".toList ∧ isIPprivate eleven.text = true ∧ ¬ eleven.Private
      ∧ (Sync.factory eleven.text "eth0".toList).algorithm = .ptp18 := by
  refine ⟨by decide, by decide, ?_, by decide⟩
  rw [private_iff]
  decide

end DottedQuad

end Qot
