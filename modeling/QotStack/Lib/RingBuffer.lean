import Mathlib.Data.List.DropRight
import Mathlib.Data.List.Rotate

/-!
# RingBuffer — the last elements of a sequence

A buffer that grows up to its capacity and then overwrites its oldest element, with a pointer to
where the next one goes. What it stands for is the end of the sequence of everything added to it:
rotated by the pointer, its cells are the last elements in the order in which they came
(`holds_add`, `holds_addAll`).
-/

namespace RingBuffer

variable {α : Type*}

structure Buffer (α : Type*) where
  cells : List α
  /-- The cell of the next addition. -/
  pointer : Nat
  deriving DecidableEq, Repr

namespace Buffer

def empty : Buffer α := ⟨[], 0⟩

def add (cap : Nat) (r : Buffer α) (x : α) : Buffer α where
  cells := if r.cells.length < cap then r.cells ++ [x] else r.cells.set r.pointer x
  pointer := (r.pointer + 1) % cap

def addAll (cap : Nat) (xs : List α) : Buffer α := xs.foldl (add cap) empty

/-- The elements, the oldest one first. -/
def contents (r : Buffer α) : List α := r.cells.rotate r.pointer

end Buffer

/-- The buffer stands for the last elements of a sequence. -/
structure Holds (cap : Nat) (xs : List α) (r : Buffer α) : Prop where
  length_cells : r.cells.length = min xs.length cap
  pointer_eq : r.pointer = xs.length % cap
  contents_eq : r.contents = xs.rtake cap

variable {cap : Nat} {xs : List α} {r : Buffer α}

theorem rtake_append_singleton (hcap : 0 < cap) (xs : List α) (x : α) :
    (xs ++ [x]).rtake cap = xs.rtake (cap - 1) ++ [x] := by
  obtain ⟨k, rfl⟩ : ∃ k, cap = k + 1 := ⟨cap - 1, by omega⟩
  rw [List.rtake_concat_succ]
  rfl

theorem rtake_pred (h : cap ≤ xs.length) (hcap : 0 < cap) :
    xs.rtake (cap - 1) = (xs.rtake cap).tail := by
  rw [List.rtake, List.rtake, List.tail_drop]
  congr 1
  omega

/-- Until the buffer is full the cells are the sequence itself. -/
theorem Holds.cells_eq (h : Holds cap xs r) (hlen : xs.length < cap) : r.cells = xs := by
  have hcells : r.cells.length = xs.length := by
    rw [h.length_cells]
    omega
  have hcontents := h.contents_eq
  rw [Buffer.contents, h.pointer_eq, Nat.mod_eq_of_lt hlen, ← hcells,
    List.rotate_length] at hcontents
  rw [hcontents, List.rtake, Nat.sub_eq_zero_of_le (le_of_lt hlen), List.drop_zero]

/-- An element at the pointer of a full buffer takes the place of the oldest one. -/
theorem rotate_set (h : r.pointer < r.cells.length) (x : α) :
    (r.cells.set r.pointer x).rotate (r.pointer + 1) = r.contents.tail ++ [x] := by
  obtain ⟨front, old, back, hcells, hfront⟩ : ∃ front old back,
      r.cells = front ++ old :: back ∧ front.length = r.pointer :=
    ⟨r.cells.take r.pointer, r.cells[r.pointer], r.cells.drop (r.pointer + 1), by simp,
      List.length_take_of_le (le_of_lt h)⟩
  have hold : r.contents = old :: back ++ front := by
    rw [Buffer.contents, hcells, ← hfront, List.rotate_append_length_eq]
  have hnew : r.cells.set r.pointer x = (front ++ [x]) ++ back := by
    rw [hcells, ← hfront, List.set_append_right _ _ le_rfl]
    simp
  have hnext : r.pointer + 1 = (front ++ [x]).length := by simp [hfront]
  rw [hold, hnew, hnext, List.rotate_append_length_eq]
  simp

/-- An addition moves the window on by one element. -/
theorem holds_add (hcap : 0 < cap) (h : Holds cap xs r) (x : α) :
    Holds cap (xs ++ [x]) (r.add cap x) := by
  have hlen := h.length_cells
  have hpointer : (r.add cap x).pointer = (xs ++ [x]).length % cap := by
    simp only [Buffer.add, h.pointer_eq, List.length_append, List.length_singleton, Nat.mod_add_mod]
  by_cases hfull : xs.length < cap
  · -- the buffer grows
    have hcells : (r.add cap x).cells = xs ++ [x] := by
      simp only [Buffer.add, h.cells_eq hfull, if_pos hfull]
    have hroom : (xs ++ [x]).length ≤ cap := by
      rw [List.length_append, List.length_singleton]
      omega
    refine ⟨?_, hpointer, ?_⟩
    · rw [hcells]
      omega
    · have hall : (xs ++ [x]).rtake cap = xs ++ [x] := by
        rw [List.rtake, Nat.sub_eq_zero_of_le hroom, List.drop_zero]
      rw [Buffer.contents, hcells, hpointer, hall]
      -- the pointer is at the end, or back at the beginning
      rcases Nat.lt_or_eq_of_le hroom with hlt | heq
      · rw [Nat.mod_eq_of_lt hlt, List.rotate_length]
      · rw [heq, Nat.mod_self, List.rotate_zero]
  · -- the oldest element is overwritten
    have hcap' : r.cells.length = cap := by omega
    have hat : r.pointer < r.cells.length := by
      rw [h.pointer_eq, hcap']
      exact Nat.mod_lt _ hcap
    have hcells : (r.add cap x).cells = r.cells.set r.pointer x := by
      simp only [Buffer.add, hcap', lt_irrefl, if_false]
    refine ⟨?_, hpointer, ?_⟩
    · rw [hcells, List.length_set, List.length_append, List.length_singleton]
      omega
    · have hwrap : (r.add cap x).contents = (r.cells.set r.pointer x).rotate (r.pointer + 1) := by
        rw [Buffer.contents, hcells, ← List.rotate_mod, ← List.rotate_mod _ (r.pointer + 1),
          List.length_set, hcap', Buffer.add, Nat.mod_mod]
      rw [hwrap, rotate_set hat, h.contents_eq, rtake_append_singleton hcap,
        rtake_pred (by omega) hcap]

theorem holds_addAll (hcap : 0 < cap) (xs : List α) : Holds cap xs (Buffer.addAll cap xs) := by
  induction xs using List.reverseRecOn with
  | nil => constructor <;> simp [Buffer.addAll, Buffer.empty, Buffer.contents]
  | append_singleton xs x ih =>
    rw [Buffer.addAll, List.foldl_append]
    exact holds_add hcap ih x

/-- Each of the last elements is in one cell. -/
theorem Holds.perm (h : Holds cap xs r) : r.cells.Perm (xs.rtake cap) := by
  rw [← h.contents_eq]
  exact (List.rotate_perm _ _).symm

end RingBuffer
