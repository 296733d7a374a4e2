import Mathlib.Data.List.Basic

/-!
# SlotTable — an array of slots, found by key

A fixed array of entries serves as a table: an entry with the key `free` is a free slot, any other
is in use, and every operation scans for the first entry with a given key and rewrites it.

`used` is the table without its free slots. `used_modifyAt`, `used_claim` and `used_release` say
what the scan does to it, up to order: an entry is rewritten, added or removed.
-/

namespace SlotTable

variable {α κ : Type _} [DecidableEq κ] (key : α → κ)

/-- Rewrite the first entry with the key `k`. -/
def modifyAt (k : κ) (f : α → α) (l : List α) : List α :=
  l.replaceF fun a => if key a = k then some (f a) else none

def used (free : κ) (l : List α) : List α := l.filter fun a => key a ≠ free

variable {key} {k free : κ} {f : α → α} {l : List α}

theorem length_modifyAt : (modifyAt key k f l).length = l.length :=
  List.length_replaceF

theorem mem_used {a : α} : a ∈ used key free l ↔ a ∈ l ∧ key a ≠ free := by
  simp [used]

/-- The scan stops at the first entry with the key. -/
theorem modifyAt_append {l₁ l₂ : List α} {a : α} (h : ∀ b ∈ l₁, key b ≠ k) (ha : key a = k) :
    modifyAt key k f (l₁ ++ a :: l₂) = l₁ ++ f a :: l₂ := by
  induction l₁ with
  | nil => simp [modifyAt, List.replaceF, ha]
  | cons b l₁ ih =>
    obtain ⟨hb, h⟩ := List.forall_mem_cons.mp h
    simpa [modifyAt, List.replaceF, hb] using ih h

theorem modifyAt_perm (h : ∃ a ∈ l, key a = k) :
    ∃ a rest, key a = k ∧ l.Perm (a :: rest) ∧ (modifyAt key k f l).Perm (f a :: rest) := by
  obtain ⟨a₀, ha₀, hk₀⟩ := h
  obtain ⟨a, a', l₁, l₂, -, ha, hl, hl'⟩ :=
    List.exists_of_replaceF (p := fun a => if key a = k then some (f a) else none) ha₀
      (if_pos hk₀)
  obtain ⟨hk, rfl⟩ : key a = k ∧ f a = a' := by simpa using ha
  refine ⟨a, l₁ ++ l₂, hk, ?_, ?_⟩
  · rw [hl]
    exact List.perm_middle
  · rw [modifyAt, hl']
    exact List.perm_middle

/-- A table with fewer used entries than slots has a free one. -/
theorem exists_free (h : (used key free l).length < l.length) : ∃ a ∈ l, key a = free := by
  by_contra hnone
  have hall : used key free l = l := by
    refine List.filter_eq_self.mpr fun a ha => ?_
    simp only [ne_eq, decide_not, Bool.not_eq_eq_eq_not, Bool.not_true, decide_eq_false_iff_not]
    exact fun hk => hnone ⟨a, ha, hk⟩
  rw [hall] at h
  exact Nat.lt_irrefl _ h

theorem used_perm {l' : List α} (h : l.Perm l') : (used key free l).Perm (used key free l') :=
  h.filter _

theorem used_cons_of_ne {a : α} (h : key a ≠ free) :
    used key free (a :: l) = a :: used key free l :=
  List.filter_cons_of_pos (by simpa using h)

theorem used_cons_of_eq {a : α} (h : key a = free) : used key free (a :: l) = used key free l :=
  List.filter_cons_of_neg (by simpa using h)

/-- Rewriting an entry under its key does not change which keys are in use. -/
theorem map_key_used_modifyAt (hf : ∀ a, key (f a) = key a) :
    (used key free (modifyAt key k f l)).map key = (used key free l).map key := by
  have hkeys : (modifyAt key k f l).map key = l.map key := by
    induction l with
    | nil => rfl
    | cons a l ih =>
      by_cases ha : key a = k
      · simp [modifyAt, List.replaceF, ha, hf]
      · simpa [modifyAt, List.replaceF, ha] using ih
  have hused : ∀ l : List α, (used key free l).map key = (l.map key).filter fun k => k ≠ free := by
    intro l
    simp [used, List.filter_map, Function.comp_def]
  rw [hused, hused, hkeys]

/-- The entry a rewrite is about, and the others. -/
theorem used_perm_modifyAt (hk : k ≠ free) (h : ∃ a ∈ used key free l, key a = k) :
    ∃ a rest, key a = k ∧ (used key free l).Perm (a :: used key free rest)
      ∧ (used key free (modifyAt key k f l)).Perm (used key free (f a :: rest)) := by
  obtain ⟨a₀, ha₀, hk₀⟩ := h
  obtain ⟨a, rest, ha, hl, hl'⟩ := modifyAt_perm (f := f) ⟨a₀, (mem_used.mp ha₀).1, hk₀⟩
  refine ⟨a, rest, ha, ?_, used_perm hl'⟩
  rw [← used_cons_of_ne (ha ▸ hk)]
  exact used_perm hl

variable (key) in
/-- Rewriting an entry in use under its key. -/
theorem used_modifyAt (hk : k ≠ free) (hf : ∀ a, key (f a) = key a)
    (h : ∃ a ∈ used key free l, key a = k) :
    ∃ a rest, key a = k ∧ (used key free l).Perm (a :: rest)
      ∧ (used key free (modifyAt key k f l)).Perm (f a :: rest) := by
  obtain ⟨a, rest, ha, hl, hl'⟩ := used_perm_modifyAt (f := f) hk h
  rw [used_cons_of_ne (by rw [hf, ha]; exact hk)] at hl'
  exact ⟨a, used key free rest, ha, hl, hl'⟩

/-- Taking a free slot. -/
theorem used_claim {a' : α} (hf : ∀ a, f a = a') (ha' : key a' ≠ free) (h : ∃ a ∈ l, key a = free) :
    (used key free (modifyAt key free f l)).Perm (a' :: used key free l) := by
  obtain ⟨a, rest, ha, hl, hl'⟩ := modifyAt_perm (f := f) h
  have hused : (used key free l).Perm (used key free rest) := by
    rw [← used_cons_of_eq (l := rest) ha]
    exact used_perm hl
  have hclaimed : (used key free (modifyAt key free f l)).Perm (a' :: used key free rest) := by
    rw [← used_cons_of_ne ha', ← hf a]
    exact used_perm hl'
  exact hclaimed.trans (hused.symm.cons a')

/-- Freeing the slot of a key. -/
theorem used_release (hk : k ≠ free) (hf : ∀ a, key (f a) = free)
    (h : ∃ a ∈ used key free l, key a = k) :
    ∃ a rest, key a = k ∧ (used key free l).Perm (a :: rest)
      ∧ (used key free (modifyAt key k f l)).Perm rest := by
  obtain ⟨a, rest, ha, hl, hl'⟩ := used_perm_modifyAt (f := f) hk h
  rw [used_cons_of_eq (hf a)] at hl'
  exact ⟨a, used key free rest, ha, hl, hl'⟩

end SlotTable
