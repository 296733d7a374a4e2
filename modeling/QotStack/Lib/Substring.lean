import Mathlib.Data.List.Basic

/-!
# Substring — the first occurrence of a word in a text

The search of `strstr`, and what it finds in a path: a sequence of components with a separator
before each. A component between separators is found at the first place where it is a component, and
the search runs over the others one at a time (`strstr_component`).
-/

namespace Substring

variable {α : Type*} [DecidableEq α]

/-- The position of the first occurrence. -/
def strstr (word : List α) : List α → Option Nat
  | [] => if word = [] then some 0 else none
  | c :: text => if word <+: c :: text then some 0 else (strstr word text).map (· + 1)

variable {word x : List α}

/-- What is found is there. -/
theorem prefix_of_strstr {text : List α} {i : Nat} (h : strstr word text = some i) :
    word <+: text.drop i := by
  induction text generalizing i with
  | nil =>
    simp only [strstr, Option.ite_none_right_eq_some] at h
    rw [h.1]
    exact List.nil_prefix
  | cons c text ih =>
    rw [strstr] at h
    split at h
    · next hstarts =>
      obtain rfl : 0 = i := Option.some.inj h
      exact hstarts
    · obtain ⟨j, hj, rfl⟩ := Option.map_eq_some_iff.mp h
      exact ih hj

/-- Nothing that begins with a separator is found among what is not one. -/
theorem strstr_skip {sep : α} (hx : sep ∉ x) (word text : List α) :
    strstr (sep :: word) (x ++ text) = (strstr (sep :: word) text).map (· + x.length) := by
  induction x with
  | nil => simp
  | cons c x ih =>
    have hne : ¬ sep :: word <+: c :: (x ++ text) := by
      intro hstarts
      exact hx (List.mem_cons.mpr (Or.inl (List.cons_prefix_cons.mp hstarts).1))
    rw [List.cons_append, strstr, if_neg hne, ih fun h => hx (List.mem_cons_of_mem _ h),
      Option.map_map]
    rfl

omit [DecidableEq α] in
/-- Two words before separators are the same if one begins the text of the other. -/
theorem prefix_component_iff {sep : α} (hword : sep ∉ word) (hx : sep ∉ x) (text : List α) :
    word ++ [sep] <+: x ++ sep :: text ↔ x = word := by
  induction word generalizing x with
  | nil =>
    cases x with
    | nil => simp
    | cons a x =>
      have hne : sep ≠ a := fun h => hx (List.mem_cons.mpr (Or.inl h))
      simp [List.cons_prefix_cons, hne]
  | cons b word ih =>
    cases x with
    | nil =>
      have hne : b ≠ sep := fun h => hword (List.mem_cons.mpr (Or.inl h.symm))
      simp [List.cons_prefix_cons, hne]
    | cons a x =>
      rw [List.cons_append, List.cons_append, List.cons_prefix_cons,
        ih (fun h => hword (List.mem_cons_of_mem _ h)) (fun h => hx (List.mem_cons_of_mem _ h)),
        List.cons.injEq, eq_comm]

/-- The search for a component looks at the components in turn. -/
theorem strstr_component {sep : α} (hword : sep ∉ word) (hx : sep ∉ x) (text : List α) :
    strstr (sep :: (word ++ [sep])) (sep :: (x ++ sep :: text))
      = if x = word then some 0
        else (strstr (sep :: (word ++ [sep])) (sep :: text)).map (· + (x.length + 1)) := by
  have hstarts : sep :: (word ++ [sep]) <+: sep :: (x ++ sep :: text) ↔ x = word := by
    rw [List.cons_prefix_cons, prefix_component_iff hword hx]
    simp
  rw [strstr]
  simp only [hstarts]
  split
  · rfl
  · rw [strstr_skip hx, Option.map_map]
    rfl

end Substring
