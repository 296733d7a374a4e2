import Mathlib.Data.Nat.Notation

/-!
# QotStack.Lib — printing and scanning hexadecimal numbers

The conversion `%x` of `printf` and of `scanf`, without a sign, a base prefix or a blank before the
digits. Scanning reads as many digits as there are and undoes printing.
-/

namespace Hex

def digitValue (c : Char) : Option Nat :=
  if '0' ≤ c ∧ c ≤ '9' then some (c.toNat - 48)
  else if 'a' ≤ c ∧ c ≤ 'f' then some (c.toNat - 87)
  else if 'A' ≤ c ∧ c ≤ 'F' then some (c.toNat - 55)
  else none

def print (n : Nat) : List Char := Nat.toDigits 16 n

/-- Read digits up to the first character that is none. -/
def value (acc : Nat) : List Char → Nat
  | [] => acc
  | c :: cs =>
    match digitValue c with
    | some d => value (16 * acc + d) cs
    | none => acc

/-- `none` if there is no digit to read. -/
def scan : List Char → Option Nat
  | [] => none
  | c :: cs => (digitValue c).map fun d => value d cs

theorem digitValue_digitChar {d : Nat} (h : d < 16) : digitValue (Nat.digitChar d) = some d := by
  have hall : ∀ d < 16, digitValue (Nat.digitChar d) = some d := by decide
  exact hall d h

theorem scan_eq_value {c : Char} (cs : List Char) (h : (digitValue c).isSome) :
    scan (c :: cs) = some (value 0 (c :: cs)) := by
  obtain ⟨d, hd⟩ := Option.isSome_iff_exists.mp h
  simp [scan, value, hd]

/-- Printing puts the last digit last. -/
theorem print_of_le {n : Nat} (h : 16 ≤ n) : print n = print (n / 16) ++ [Nat.digitChar (n % 16)] :=
  Nat.toDigits_of_base_le (by decide) h

theorem print_of_lt {n : Nat} (h : n < 16) : print n = [Nat.digitChar n] :=
  Nat.toDigits_of_lt_base h

theorem print_digits (n : Nat) : ∀ c ∈ print n, (digitValue c).isSome := by
  induction n using Nat.strongRecOn with
  | ind n ih =>
    intro c hc
    by_cases hn : n < 16
    · rw [print_of_lt hn, List.mem_singleton] at hc
      rw [hc, digitValue_digitChar hn, Option.isSome_some]
    · rw [print_of_le (Nat.not_lt.mp hn), List.mem_append, List.mem_singleton] at hc
      rcases hc with hc | rfl
      · exact ih (n / 16) (by omega) c hc
      · rw [digitValue_digitChar (Nat.mod_lt n (by decide)), Option.isSome_some]

theorem value_append {xs : List Char} (h : ∀ c ∈ xs, (digitValue c).isSome) (acc : Nat)
    (ys : List Char) : value acc (xs ++ ys) = value (value acc xs) ys := by
  induction xs generalizing acc with
  | nil => rfl
  | cons c cs ih =>
    obtain ⟨hc, hcs⟩ := List.forall_mem_cons.mp h
    obtain ⟨d, hd⟩ := Option.isSome_iff_exists.mp hc
    simp only [List.cons_append, value, hd]
    exact ih hcs _

theorem value_print (n : Nat) : value 0 (print n) = n := by
  induction n using Nat.strongRecOn with
  | ind n ih =>
    by_cases hn : n < 16
    · rw [print_of_lt hn]
      simp [value, digitValue_digitChar hn]
    · rw [print_of_le (Nat.not_lt.mp hn), value_append (print_digits _), ih (n / 16) (by omega)]
      simp only [value, digitValue_digitChar (Nat.mod_lt n (by decide : 0 < 16))]
      omega

/-- **Scanning undoes printing.** -/
theorem scan_print (n : Nat) : scan (print n) = some n := by
  cases hp : print n with
  | nil =>
    exact absurd hp Nat.toDigits_ne_nil
  | cons c cs =>
    have hc : (digitValue c).isSome := print_digits n c (hp ▸ List.mem_cons_self)
    rw [scan_eq_value cs hc, ← hp, value_print]

/-- A 32-bit number has at most eight digits. -/
theorem print_length {n : Nat} (h : n < 4294967296) : (print n).length ≤ 8 :=
  (Nat.length_toDigits_le_iff (by decide) (by decide)).mpr (by omega)

end Hex
