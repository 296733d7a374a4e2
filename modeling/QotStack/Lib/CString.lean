import Mathlib.Data.List.Basic

/-!
# CString — terminated strings in a memory of bytes

A string is copied with its terminator, however long the place is that it is copied to. What can be
read back from a place of a given size is a string only if there is a terminator in it
(`stringIn_strcpy`).
-/

namespace CString

abbrev Memory := Nat → UInt8

/-- A string without its terminator. -/
@[ext] structure CStr where
  bytes : List UInt8
  terminated : 0 ∉ bytes

def store (mem : Memory) (dst : Nat) (bytes : List UInt8) : Memory := fun addr =>
  if dst ≤ addr then bytes[addr - dst]?.getD (mem addr) else mem addr

def load (mem : Memory) (src n : Nat) : List UInt8 := (List.range n).map fun i => mem (src + i)

def strcpy (mem : Memory) (dst : Nat) (s : CStr) : Memory := store mem dst (s.bytes ++ [0])

/-- The string in a place of some size. -/
def stringIn (mem : Memory) (src size : Nat) : Option (List UInt8) :=
  let bytes := load mem src size
  if 0 ∈ bytes then some (bytes.takeWhile (· ≠ 0)) else none

/-! ## Stores -/

section
variable (mem : Memory)

theorem store_outside {dst addr : Nat} {bytes : List UInt8}
    (h : addr < dst ∨ dst + bytes.length ≤ addr) : store mem dst bytes addr = mem addr := by
  unfold store
  split
  · rw [List.getElem?_eq_none (by omega)]
    rfl
  · rfl

theorem store_inside {dst i : Nat} {bytes : List UInt8} (h : i < bytes.length) :
    store mem dst bytes (dst + i) = bytes[i] := by
  unfold store
  rw [if_pos (Nat.le_add_right _ _), Nat.add_sub_cancel_left, List.getElem?_eq_getElem h]
  rfl

theorem load_store (dst : Nat) (bytes : List UInt8) {n : Nat}
    (h : n ≤ bytes.length) : load (store mem dst bytes) dst n = bytes.take n := by
  apply List.ext_getElem
  · simp [load, h]
  · intro i hi hi'
    simp only [load, List.length_map, List.length_range] at hi
    simp [load, store_inside mem (show i < bytes.length by omega)]

theorem load_add (src m n : Nat) :
    load mem src (m + n) = load mem src m ++ load mem (src + m) n := by
  simp [load, List.range_add, Nat.add_assoc, Function.comp_def]

/-! ## Copies -/

theorem strcpy_outside {dst addr : Nat} {s : CStr}
    (h : addr < dst ∨ dst + s.bytes.length < addr) : strcpy mem dst s addr = mem addr := by
  apply store_outside
  rw [List.length_append, List.length_singleton]
  omega

theorem strcpy_end (dst : Nat) (s : CStr) : strcpy mem dst s (dst + s.bytes.length) = 0 := by
  rw [strcpy, store_inside mem (by simp)]
  simp

/-- A string that fits is followed by its terminator and by what was there before. -/
theorem load_strcpy (dst : Nat) (s : CStr) {size : Nat} (h : s.bytes.length < size) :
    ∃ rest, load (strcpy mem dst s) dst size = s.bytes ++ 0 :: rest := by
  obtain ⟨k, rfl⟩ : ∃ k, size = (s.bytes ++ [0]).length + k :=
    ⟨size - (s.bytes.length + 1), by rw [List.length_append, List.length_singleton]; omega⟩
  refine ⟨load (strcpy mem dst s) (dst + (s.bytes ++ [0]).length) k, ?_⟩
  rw [load_add, strcpy, load_store mem dst _ (Nat.le_refl _), List.take_length]
  simp

/-- A string that is copied is there exactly if it fits with its terminator. -/
theorem stringIn_strcpy (dst size : Nat) (s : CStr) :
    stringIn (strcpy mem dst s) dst size
      = if s.bytes.length < size then some s.bytes else none := by
  split
  · next hfits =>
    have hall : ∀ b ∈ s.bytes, decide (b ≠ 0) = true := by
      intro b hb
      exact decide_eq_true fun h => s.terminated (h ▸ hb)
    obtain ⟨rest, hload⟩ := load_strcpy mem dst s hfits
    rw [stringIn, hload]
    simp only [List.mem_append, List.mem_cons, true_or, or_true, if_true]
    rw [List.takeWhile_append_of_pos hall, List.takeWhile_cons_of_neg (by simp), List.append_nil]
  · next hlong =>
    have hload : load (strcpy mem dst s) dst size = s.bytes.take size := by
      rw [strcpy, load_store mem dst _ (by rw [List.length_append]; omega),
        List.take_append_of_le_length (by omega)]
    rw [stringIn, hload]
    exact if_neg fun h => s.terminated (List.mem_of_mem_take h)

end

/-! ## Comparison -/

/-- Compare two strings, or run past the end of what can be read. -/
def strcmp : List UInt8 → List UInt8 → Option Ordering
  | x :: xs, y :: ys =>
    if x ≠ y then some (compare x y) else if x = 0 then some .eq else strcmp xs ys
  | _, _ => none

/-- What compares equal to a string begins with it and its terminator. -/
theorem prefix_of_strcmp {s rest other : List UInt8} (hs : 0 ∉ s)
    (h : strcmp (s ++ 0 :: rest) other = some .eq) : s ++ [0] <+: other := by
  induction s generalizing other with
  | nil =>
    cases other with
    | nil => simp [strcmp] at h
    | cons y ys =>
      by_cases hy : (0 : UInt8) = y
      · simp [← hy]
      · simp [strcmp, hy] at h
  | cons x xs ih =>
    cases other with
    | nil => simp [strcmp] at h
    | cons y ys =>
      have hx : x ≠ 0 := fun hx => hs (by simp [hx])
      by_cases hxy : x = y
      · subst hxy
        have htail : strcmp (xs ++ 0 :: rest) ys = some .eq := by
          simpa [strcmp, hx] using h
        simpa using ih (fun hmem => hs (List.mem_cons_of_mem _ hmem)) htail
      · simp [strcmp, hxy] at h

/-- The bytes up to the first terminator determine the string. -/
theorem eq_of_terminated {s t other : List UInt8} (hs : 0 ∉ s) (ht : 0 ∉ t)
    (h₁ : s ++ [0] <+: other) (h₂ : t ++ [0] <+: other) : s = t := by
  induction s generalizing t other with
  | nil =>
    cases t with
    | nil => rfl
    | cons y ys =>
      obtain ⟨r, rfl⟩ := h₁
      simp_all
  | cons x xs ih =>
    obtain ⟨r, rfl⟩ := h₁
    cases t with
    | nil => simp_all
    | cons y ys =>
      simp only [List.cons_append, List.cons_prefix_cons] at h₂
      obtain ⟨rfl, htail⟩ := h₂
      simp only [List.mem_cons, not_or] at hs ht
      rw [ih hs.2 ht.2 (List.prefix_append _ _) htail]

end CString
