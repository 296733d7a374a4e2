import Mathlib.Data.List.TakeWhile

/-!
# Decimal — reading integers the way `scanf` does

The conversion `%d` skips blanks, takes a sign, and then as many digits as there are; without a
digit it fails. What it leaves is read by what follows in the format.
-/

namespace Decimal

def isSpace (c : Char) : Bool := c ∈ [' ', '\t', '\n', '\x0b', '\x0c', '\x0d']

/-- The number that digits stand for, and what follows them. -/
def scanDigits (cs : List Char) : Option (Nat × List Char) :=
  let ds := cs.takeWhile Char.isDigit
  if ds = [] then none else some (Nat.ofDigitChars 10 ds 0, cs.dropWhile Char.isDigit)

/-- The conversion `%d`: the number and what is left. -/
def scanInt (cs : List Char) : Option (Int × List Char) :=
  let cs := cs.dropWhile isSpace
  if cs.head? = some '-' then (scanDigits cs.tail).map fun (n, rest) => (-(n : Int), rest)
  else if cs.head? = some '+' then (scanDigits cs.tail).map fun (n, rest) => ((n : Int), rest)
  else (scanDigits cs).map fun (n, rest) => ((n : Int), rest)

/-- A character of the format that stands for itself. -/
def scanChar (c : Char) (cs : List Char) : Option (List Char) :=
  if cs.head? = some c then some cs.tail else none

/-- A numeral, written with any number of leading zeros. -/
structure Numeral where
  digits : List Char
  ne_nil : digits ≠ []
  isDigit : ∀ c ∈ digits, c.isDigit = true
  deriving DecidableEq

def Numeral.value (n : Numeral) : Nat := Nat.ofDigitChars 10 n.digits 0

theorem scanDigits_numeral (n : Numeral) {rest : List Char}
    (hrest : ∀ c, rest.head? = some c → c.isDigit = false) :
    scanDigits (n.digits ++ rest) = some (n.value, rest) := by
  have htake : rest.takeWhile Char.isDigit = [] := by
    cases rest with
    | nil => rfl
    | cons c cs => simp [hrest c rfl]
  have hdrop : rest.dropWhile Char.isDigit = rest := by
    cases rest with
    | nil => rfl
    | cons c cs => simp [hrest c rfl]
  have hds : (n.digits ++ rest).takeWhile Char.isDigit = n.digits := by
    rw [List.takeWhile_append_of_pos n.isDigit, htake, List.append_nil]
  rw [scanDigits, hds, if_neg n.ne_nil, List.dropWhile_append_of_pos n.isDigit, hdrop]
  rfl

/-- A digit is neither a blank nor a sign. -/
theorem isDigit_ne {c : Char} (h : c.isDigit = true) : isSpace c = false ∧ c ≠ '-' ∧ c ≠ '+' := by
  have hne : ∀ c' : Char, c'.isDigit = false → c ≠ c' := by
    rintro _ h' rfl
    exact Bool.noConfusion (h.symm.trans h')
  refine ⟨?_, hne _ (by decide), hne _ (by decide)⟩
  rw [isSpace, decide_eq_false_iff_not]
  intro hmem
  have hblank : ∀ c' ∈ [' ', '\t', '\n', '\x0b', '\x0c', '\x0d'], c'.isDigit = false := by
    simp only [List.forall_mem_cons, List.not_mem_nil, false_implies, implies_true, and_true]
    decide
  exact hne c (hblank c hmem) rfl

theorem scanInt_numeral (n : Numeral) {rest : List Char}
    (hrest : ∀ c, rest.head? = some c → c.isDigit = false) :
    scanInt (n.digits ++ rest) = some ((n.value : Int), rest) := by
  have hdigits := scanDigits_numeral n hrest
  obtain ⟨c, cs, hcs⟩ := List.exists_cons_of_ne_nil n.ne_nil
  obtain ⟨hspace, hminus, hplus⟩ := isDigit_ne (n.isDigit c (hcs ▸ List.mem_cons_self))
  have hskip : (n.digits ++ rest).dropWhile isSpace = n.digits ++ rest := by
    rw [hcs, List.cons_append, List.dropWhile_cons_of_neg (by simp [hspace])]
  have hhead : (n.digits ++ rest).head? = some c := by
    rw [hcs]
    rfl
  rw [scanInt, hskip, hhead]
  simp only [Option.some.injEq, if_neg hminus, if_neg hplus, hdigits, Option.map_some]

end Decimal
