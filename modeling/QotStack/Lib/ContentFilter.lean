import Mathlib.Order.Lattice

/-!
# ContentFilter — query expressions over samples

The conditions with which a data distribution service selects samples: comparisons of a field with a
parameter `%n`, joined by `AND` and `OR`, of which `AND` binds tighter, and grouped by parentheses.
Words are separated by blanks or parentheses.

A text is read from left to right in one pass over its characters, and what has been read is a
`Reader`. So a text that a program puts together piece by piece can be followed piece by piece
(`read_append`, and one lemma for each piece). A condition is compiled against the fields of a type
of samples and the values of the parameters, and refused if it names a field or a parameter that is
not there.
-/

namespace ContentFilter

inductive RelOp where
  | eq | ne | lt | le | gt | ge
  deriving DecidableEq, Repr

inductive Token where
  | lparen
  | rparen
  | and
  | or
  | rel (op : RelOp)
  | field (name : String)
  | param (n : Nat)
  deriving DecidableEq, Repr

inductive Cond where
  | cmp (field : String) (op : RelOp) (param : Nat)
  | and (c d : Cond)
  | or (c d : Cond)
  deriving DecidableEq, Repr

/-! ## Reading -/

def isNameChar (c : Char) : Bool := c.isAlphanum || c == '_' || c == '.'

/-- The token of a word. -/
def classify : List Char → Option Token
  | ['A', 'N', 'D'] => some .and
  | ['O', 'R'] => some .or
  | ['='] => some (.rel .eq)
  | ['<', '>'] => some (.rel .ne)
  | ['<'] => some (.rel .lt)
  | ['<', '='] => some (.rel .le)
  | ['>'] => some (.rel .gt)
  | ['>', '='] => some (.rel .ge)
  | '%' :: digits =>
    if digits ≠ [] ∧ digits.all Char.isDigit then some (.param (Nat.ofDigitChars 10 digits 0))
    else none
  | word => if word.all isNameChar then some (.field (String.ofList word)) else none

/-- What has been read of a condition since its opening parenthesis: the alternatives before the
last `OR`, and the conjuncts between that and the last `AND`. -/
structure Frame where
  disj : Option Cond
  conj : Option Cond
  deriving DecidableEq, Repr

def Frame.start : Frame := ⟨none, none⟩

def Frame.joinAnd (f : Frame) (c : Cond) : Cond := f.conj.elim c fun d => .and d c

/-- The condition if it ends with the operand `c`. -/
def Frame.close (f : Frame) (c : Cond) : Cond :=
  f.disj.elim (f.joinAnd c) fun d => .or d (f.joinAnd c)

/-- What must come next. `operator` has the operand that has just been read. -/
inductive Expect where
  | operand
  | relation (field : String)
  | param (field : String) (op : RelOp)
  | operator (c : Cond)
  deriving DecidableEq, Repr

/-- The conditions that are open, the innermost first in `frame`. -/
structure Parser where
  outer : List Frame
  frame : Frame
  expect : Expect
  deriving DecidableEq, Repr

def Parser.take (p : Parser) (token : Token) : Option Parser :=
  match p.expect, token with
  | .operand, .lparen => some ⟨p.frame :: p.outer, .start, .operand⟩
  | .operand, .field name => some { p with expect := .relation name }
  | .relation name, .rel op => some { p with expect := .param name op }
  | .param name op, .param n => some { p with expect := .operator (.cmp name op n) }
  -- `AND` binds tighter: the alternatives before it stay as they are
  | .operator c, .and =>
    some ⟨p.outer, { p.frame with conj := some (p.frame.joinAnd c) }, .operand⟩
  | .operator c, .or => some ⟨p.outer, ⟨some (p.frame.close c), none⟩, .operand⟩
  | .operator c, .rparen =>
    match p.outer with
    | [] => none
    | f :: fs => some ⟨fs, f, .operator (p.frame.close c)⟩
  | _, _ => none

def Parser.finish (p : Parser) : Option Cond :=
  match p.outer, p.expect with
  | [], .operator c => some (p.frame.close c)
  | _, _ => none

/-- The parser and the word that has been begun. -/
structure Reader where
  word : List Char
  parser : Parser
  deriving DecidableEq, Repr

def Reader.start : Reader := ⟨[], ⟨[], .start, .operand⟩⟩

def Reader.flush (r : Reader) : Option Parser :=
  if r.word = [] then some r.parser else (classify r.word).bind r.parser.take

def Reader.step (r : Reader) (c : Char) : Option Reader :=
  if c = ' ' then r.flush.map fun p => ⟨[], p⟩
  else if c = '(' then (r.flush.bind fun p => p.take .lparen).map fun p => ⟨[], p⟩
  else if c = ')' then (r.flush.bind fun p => p.take .rparen).map fun p => ⟨[], p⟩
  else some ⟨r.word ++ [c], r.parser⟩

def read (text : List Char) (r : Reader) : Option Reader := text.foldlM Reader.step r

def parse (text : String) : Option Cond :=
  ((read text.toList .start).bind Reader.flush).bind Parser.finish

theorem read_append (text rest : List Char) (r : Reader) :
    read (text ++ rest) r = (read text r).bind (read rest) := List.foldlM_append

theorem read_singleton (c : Char) (r : Reader) : read [c] r = r.step c := by
  show (r.step c).bind some = _
  rw [Option.bind_fun_some]

/-- The characters of a word are kept until it ends. -/
theorem read_word {text : List Char} (h : ∀ c ∈ text, c ≠ ' ' ∧ c ≠ '(' ∧ c ≠ ')')
    (word : List Char) (p : Parser) : read text ⟨word, p⟩ = some ⟨word ++ text, p⟩ := by
  induction text generalizing word with
  | nil => rw [List.append_nil]; rfl
  | cons c rest ih =>
    obtain ⟨hblank, hopen, hclose⟩ := h c List.mem_cons_self
    have hstep : Reader.step ⟨word, p⟩ c = some ⟨word ++ [c], p⟩ := by
      simp only [Reader.step, if_neg hblank, if_neg hopen, if_neg hclose]
    show (Reader.step ⟨word, p⟩ c).bind (read rest) = _
    rw [hstep, Option.bind_some, ih (fun d hd => h d (List.mem_cons_of_mem c hd)),
      List.append_assoc, List.singleton_append]

/-! ### Parameters -/

theorem isDigit_toDigits (n : Nat) : ∀ c ∈ Nat.toDigits 10 n, c.isDigit = true := fun _ hc =>
  Nat.isDigit_of_mem_toDigits (by decide) (by decide) hc

theorem classify_param (n : Nat) : classify ('%' :: Nat.toDigits 10 n) = some (.param n) := by
  have hall : (Nat.toDigits 10 n).all Char.isDigit = true := by
    rw [List.all_eq_true]
    exact isDigit_toDigits n
  show (if Nat.toDigits 10 n ≠ [] ∧ (Nat.toDigits 10 n).all Char.isDigit then
    some (Token.param (Nat.ofDigitChars 10 (Nat.toDigits 10 n) 0)) else none) = _
  rw [if_pos ⟨Nat.toDigits_ne_nil, hall⟩, Nat.ofDigitChars_ten_toDigits]

theorem read_digits (n : Nat) (word : List Char) (p : Parser) :
    read (toString n).toList ⟨word, p⟩ = some ⟨word ++ Nat.toDigits 10 n, p⟩ := by
  rw [Nat.toString_eq_ofList_toDigits, String.toList_ofList]
  apply read_word
  intro c hc
  have hdigit := isDigit_toDigits n c hc
  -- none of the separators is a digit
  refine ⟨?_, ?_, ?_⟩
  all_goals
    rintro rfl
    exact absurd hdigit (by decide)

/-- A parameter in its place, with the parenthesis after it. -/
theorem read_param (n : Nat) (name : String) (op : RelOp) (f : Frame) (frame : Frame)
    (outer : List Frame) :
    read ((toString n).toList ++ [')']) ⟨['%'], ⟨f :: outer, frame, .param name op⟩⟩
      = some ⟨[], ⟨outer, f, .operator (frame.close (.cmp name op n))⟩⟩ := by
  have hflush : Reader.flush ⟨'%' :: Nat.toDigits 10 n, ⟨f :: outer, frame, .param name op⟩⟩
      = some ⟨f :: outer, frame, .operator (.cmp name op n)⟩ := by
    show (classify ('%' :: Nat.toDigits 10 n)).bind _ = _
    rw [classify_param]
    rfl
  rw [read_append, read_digits, Option.bind_some, read_singleton]
  show ((Reader.flush ⟨'%' :: Nat.toDigits 10 n, ⟨f :: outer, frame, .param name op⟩⟩).bind
    fun p => p.take .rparen).map _ = _
  rw [hflush]
  rfl

/-! ## Selecting -/

section Compile

variable {σ β : Type _} [LinearOrder β]

def RelOp.holds : RelOp → β → β → Bool
  | .eq, x, y => decide (x = y)
  | .ne, x, y => decide (x ≠ y)
  | .lt, x, y => decide (x < y)
  | .le, x, y => decide (x ≤ y)
  | .gt, x, y => decide (y < x)
  | .ge, x, y => decide (y ≤ x)

def Cond.compile (field : String → Option (σ → β)) (param : Nat → Option β) :
    Cond → Option (σ → Bool)
  | .cmp name op n => (field name).bind fun get => (param n).map fun v s => op.holds (get s) v
  | .and c d => (c.compile field param).bind fun p => (d.compile field param).map fun q s =>
      p s && q s
  | .or c d => (c.compile field param).bind fun p => (d.compile field param).map fun q s =>
      p s || q s

/-- The field is one of the parameters from `%1` to `%(n + 1)`. -/
def oneOf (name : String) : Nat → Cond
  | 0 => .cmp name .eq 1
  | n + 1 => .or (oneOf name n) (.cmp name .eq (n + 2))

variable {field : String → Option (σ → β)} {param : Nat → Option β} {name : String} {get : σ → β}

theorem compile_cmp (hfield : field name = some get) (op : RelOp) (n : Nat) :
    (Cond.cmp name op n).compile field param = (param n).map fun v s => op.holds (get s) v := by
  show (field name).bind _ = _
  rw [hfield, Option.bind_some]

/-- It is refused if one of the parameters is. -/
theorem oneOf_compiles_iff (hfield : field name = some get) (n : Nat) :
    ((oneOf name n).compile field param).isSome ↔ ∀ i ≤ n, (param (i + 1)).isSome := by
  induction n with
  | zero =>
    show ((Cond.cmp name .eq 1).compile field param).isSome ↔ _
    rw [compile_cmp hfield, Option.isSome_map]
    exact ⟨fun h i hi => by rwa [Nat.le_zero.mp hi], fun h => h 0 (Nat.le_refl 0)⟩
  | succ n ih =>
    have hsplit : ((oneOf name (n + 1)).compile field param).isSome
        ↔ ((oneOf name n).compile field param).isSome ∧ (param (n + 2)).isSome := by
      show (((oneOf name n).compile field param).bind fun p =>
        ((Cond.cmp name .eq (n + 2)).compile field param).map _).isSome ↔ _
      rw [compile_cmp hfield]
      cases (oneOf name n).compile field param <;> simp
    rw [hsplit, ih]
    constructor
    · intro h i hi
      rcases Nat.le_succ_iff.mp hi with hle | heq
      · exact h.1 i hle
      · rw [heq]
        exact h.2
    · intro h
      exact ⟨fun i hi => h i (by omega), h (n + 1) (Nat.le_refl _)⟩

/-- It selects the samples whose field is among the parameters. -/
theorem oneOf_apply (hfield : field name = some get) {n : Nat} {q : σ → Bool}
    (h : (oneOf name n).compile field param = some q) (s : σ) :
    q s = true ↔ ∃ i ≤ n, param (i + 1) = some (get s) := by
  induction n generalizing q with
  | zero =>
    have hcmp : (Cond.cmp name .eq 1).compile field param = some q := h
    rw [compile_cmp hfield, Option.map_eq_some_iff] at hcmp
    obtain ⟨v, hv, rfl⟩ := hcmp
    show decide (get s = v) = true ↔ _
    rw [decide_eq_true_iff]
    constructor
    · intro heq
      exact ⟨0, Nat.le_refl 0, by rw [hv, heq]⟩
    · rintro ⟨i, hi, heq⟩
      rw [Nat.le_zero.mp hi, hv] at heq
      exact (Option.some.inj heq).symm
  | succ n ih =>
    have hor : ((oneOf name n).compile field param).bind (fun p =>
        ((Cond.cmp name .eq (n + 2)).compile field param).map fun q s => p s || q s) = some q := h
    obtain ⟨p, hp, hmap⟩ := Option.bind_eq_some_iff.mp hor
    rw [compile_cmp hfield, Option.map_map, Option.map_eq_some_iff] at hmap
    obtain ⟨v, hv, rfl⟩ := hmap
    show (p s || decide (get s = v)) = true ↔ _
    rw [Bool.or_eq_true, ih hp, decide_eq_true_iff]
    constructor
    · rintro (⟨i, hi, heq⟩ | heq)
      · exact ⟨i, by omega, heq⟩
      · exact ⟨n + 1, Nat.le_refl _, by rw [hv, heq]⟩
    · rintro ⟨i, hi, heq⟩
      rcases Nat.le_succ_iff.mp hi with hle | rfl
      · exact Or.inl ⟨i, hle, heq⟩
      · rw [hv] at heq
        exact Or.inr (Option.some.inj heq).symm

end Compile

end ContentFilter
