import Mathlib.Order.Nat
import QotStack.Lib.Runs

/-!
# QotStack — the core clock of a paravirtual guest (`qot_x86.c`)

In a guest the core clock is `qot_x86_pvclock_clocksource_read`: each virtual processor has a record
that the host keeps up to date, and reads the time from its own. Two records need not agree, so a
reading can lie behind one that another processor has already handed out. `last_value`, shared by
all, is there against it: a reading that is behind is replaced by it, and one that is ahead is
stored in it with a compare-and-exchange, tried again while others get in between.

The processors take their steps in any order (`pvStep`): one turn of the loop that repeats a torn
reading, the load of `last_value`, one turn of the loop around `atomic64_cmpxchg`. Each shared
access is a step of its own; what lies between two of them is local to the processor. `now` is the
time itself, which only the statements look at.

* **`pvclock_reads_never_go_back`** — a read that begins when another has returned is not behind it;
* **`pvclock_reads_stay_accurate`** — the exchange of readings does not widen their error.
-/

namespace Qot

/-- A turn of the loop around `__pvclock_read_cycles`: the version the reading was made under, the
time and the flag it gave, and the version as the loop's condition reads it, once for each half. -/
structure PvReading where
  version : Nat
  ret : Nat
  tscStable : Bool
  versionForParity : Nat
  versionForChange : Nat

/-- The condition of the loop: the host was writing to the record, or has written to it. -/
def PvReading.torn (r : PvReading) : Bool :=
  r.versionForParity % 2 == 1 || r.version != r.versionForChange

/-- Where a processor is in `qot_x86_pvclock_clocksource_read`, with the locals that live there. -/
inductive PvPhase where
  | idle
  | reading
  | read (ret : Nat)
  | trying (ret last : Nat)

/-- The guest: the processors, `last_value`, and what the reads have returned so far, in order. -/
structure PvGuest (n : Nat) where
  now : Nat
  lastValue : Nat
  phase : Fin n → PvPhase
  returned : List (Fin n × Nat)

inductive PvOp (n : Nat) where
  | advance (d : Nat)
  | enter (cpu : Fin n)
  | readCycles (cpu : Fin n) (r : PvReading)
  | load (cpu : Fin n)
  | iterate (cpu : Fin n)

/-- `atomic64_cmpxchg`: the value found, and the value left. -/
def atomic64Cmpxchg (v old new : Nat) : Nat × Nat := (v, if v = old then new else v)

namespace PvGuest

variable {n : Nat}

def start (n now : Nat) : PvGuest n := ⟨now, 0, fun _ => .idle, []⟩

def goto (s : PvGuest n) (cpu : Fin n) (p : PvPhase) : PvGuest n :=
  { s with phase := Function.update s.phase cpu p }

def leave (s : PvGuest n) (cpu : Fin n) (v : Nat) : PvGuest n :=
  { s.goto cpu .idle with returned := s.returned ++ [(cpu, v)] }

/-- The body of the second loop and its condition. -/
def tryOnce (s : PvGuest n) (cpu : Fin n) (ret last : Nat) : PvGuest n :=
  if ret < last then s.leave cpu last
  else
    let found := (atomic64Cmpxchg s.lastValue last ret).1
    let s' := { s with lastValue := (atomic64Cmpxchg s.lastValue last ret).2 }
    if found ≠ ret then s'.goto cpu (.trying ret found) else s'.leave cpu ret

end PvGuest

/-- A step of one processor, or of time. An operation that is not the processor's next is no
step. -/
def pvStep {n : Nat} (s : PvGuest n) : PvOp n → Option (PvGuest n)
  | .advance d => some { s with now := s.now + d }
  | .enter cpu =>
    match s.phase cpu with
    | .idle => some (s.goto cpu .reading)
    | _ => none
  | .readCycles cpu r =>
    match s.phase cpu with
    | .reading =>
      -- a stable counter needs no help from the others
      some (if r.torn then s else if r.tscStable then s.leave cpu r.ret
        else s.goto cpu (.read r.ret))
    | _ => none
  | .load cpu =>
    match s.phase cpu with
    | .read ret => some (s.goto cpu (.trying ret s.lastValue))
    | _ => none
  | .iterate cpu =>
    match s.phase cpu with
    | .trying ret last => some (s.tryOnce cpu ret last)
    | _ => none

variable {n : Nat} {s s' b : PvGuest n} {a : PvOp n} {ε : Nat}

/-! ## What the processors hold

Everything is compared with a state `b` of the run: a processor that is idle there makes its reading
only later, and looks at `last_value` only later, which by then is at least what it was in `b`. -/

/-- The reading a step makes comes from a counter that needs the correction. -/
def Unstable : PvOp n → Prop
  | .readCycles _ r => r.tscStable = false
  | _ => True

/-- It is within `ε` of the time at which it is made, unless it is thrown away. -/
def Within (ε : Nat) (s : PvGuest n) : PvOp n → Prop
  | .readCycles _ r => r.torn = false → s.now ≤ r.ret + ε ∧ r.ret ≤ s.now + ε
  | _ => True

/-- What processor `c` may hold in `s`. -/
def Held (ε : Nat) (b s : PvGuest n) (c : Fin n) : PvPhase → Prop
  | .read ret => ret ≤ s.now + ε ∧ (b.phase c = .idle → b.now ≤ ret + ε)
  | .trying ret last => ret ≤ s.now + ε ∧ last ≤ s.lastValue
      ∧ (b.phase c = .idle → b.now ≤ ret + ε ∧ b.lastValue ≤ last)
  | _ => True

/-- What it may return. -/
def Given (ε : Nat) (b s : PvGuest n) (r : Fin n × Nat) : Prop :=
  r.2 ≤ s.lastValue ∧ (b.phase r.1 = .idle → b.now ≤ r.2 + ε ∧ b.lastValue ≤ r.2)

structure PvInv (ε : Nat) (b s : PvGuest n) : Prop where
  now : b.now ≤ s.now
  lastValue : b.lastValue ≤ s.lastValue
  notAhead : s.lastValue ≤ s.now + ε
  held : ∀ c, Held ε b s c (s.phase c)
  returned : ∃ new, s.returned = b.returned ++ new ∧ ∀ r ∈ new, Given ε b s r

variable {cpu : Fin n}

namespace PvInv
variable (h : PvInv ε b s)
include h

theorem goto {p : PvPhase} (hp : Held ε b s cpu p) : PvInv ε b (s.goto cpu p) :=
  { h with
    held := by
      intro c
      show Held ε b s c (Function.update s.phase cpu p c)
      by_cases hc : c = cpu
      · subst hc
        rw [Function.update_self]
        exact hp
      · rw [Function.update_of_ne hc]
        exact h.held c }

theorem leave {v : Nat} (hv : Given ε b s (cpu, v)) : PvInv ε b (s.leave cpu v) := by
  obtain ⟨new, hnew, hgiven⟩ := h.returned
  have hidle : PvInv ε b (s.goto cpu .idle) := h.goto trivial
  refine { hidle with returned := ⟨new ++ [(cpu, v)], ?_, ?_⟩ }
  · show s.returned ++ [(cpu, v)] = _
    rw [hnew, List.append_assoc]
  · intro r hr
    rcases List.mem_append.mp hr with hr | hr
    · exact hgiven r hr
    · rw [List.mem_singleton.mp hr]
      exact hv

/-- Time and `last_value` go up, which nothing that is held or was returned minds. -/
theorem raise {d v : Nat} (hv : s.lastValue ≤ v) (hahead : v ≤ s.now + d + ε) :
    PvInv ε b { s with now := s.now + d, lastValue := v } where
  now := h.now.trans (Nat.le_add_right _ _)
  lastValue := h.lastValue.trans hv
  notAhead := hahead
  held := by
    intro c
    have hc := h.held c
    show Held ε b { s with now := s.now + d, lastValue := v } c (s.phase c)
    cases hp : s.phase c with
    | read ret =>
      rw [hp] at hc
      exact ⟨show ret ≤ s.now + d + ε from hc.1.trans (by omega), hc.2⟩
    | trying ret last =>
      rw [hp] at hc
      exact ⟨show ret ≤ s.now + d + ε from hc.1.trans (by omega), hc.2.1.trans hv, hc.2.2⟩
    | idle | reading => trivial
  returned := by
    obtain ⟨new, hnew, hgiven⟩ := h.returned
    exact ⟨new, hnew, fun r hr => ⟨(hgiven r hr).1.trans hv, (hgiven r hr).2⟩⟩

/-- A turn of the second loop. The value found is that of `last_value`, whether the exchange
succeeds or not, and if it does the value left is larger. -/
theorem tryOnce {ret last : Nat} (hc : s.phase cpu = .trying ret last) :
    PvInv ε b (s.tryOnce cpu ret last) := by
  have hheld : Held ε b s cpu (.trying ret last) := hc ▸ h.held cpu
  unfold PvGuest.tryOnce atomic64Cmpxchg
  by_cases hlt : ret < last
  · rw [if_pos hlt]
    -- what replaces the reading is above it
    exact h.leave ⟨hheld.2.1, fun hb => ⟨(hheld.2.2 hb).1.trans (by omega), (hheld.2.2 hb).2⟩⟩
  · rw [if_neg hlt]
    have hup : s.lastValue ≤ if s.lastValue = last then ret else s.lastValue := by split <;> omega
    have hahead : (if s.lastValue = last then ret else s.lastValue) ≤ s.now + 0 + ε := by
      split
      · exact hheld.1
      · exact h.notAhead
    have hraise := h.raise hup hahead
    by_cases hfound : s.lastValue = ret
    · simp only [hfound, ne_eq, not_true_eq_false, if_false] at hraise hup ⊢
      exact hraise.leave ⟨hup, fun hb => ⟨(hheld.2.2 hb).1, hfound ▸ h.lastValue⟩⟩
    · simp only [ne_eq, hfound, not_false_eq_true, if_true]
      exact hraise.goto ⟨hheld.1, hup, fun hb => ⟨(hheld.2.2 hb).1, h.lastValue⟩⟩

theorem step (hun : Unstable a) (hin : Within ε s a) : pvStep s a = some s' → PvInv ε b s' := by
  fun_cases pvStep s a with
  | case1 d => -- advance
    rintro ⟨⟩
    exact h.raise le_rfl (h.notAhead.trans (by omega))
  | case2 cpu hphase => -- enter
    rintro ⟨⟩
    exact h.goto trivial
  | case4 cpu r hphase => -- readCycles
    have hstable : r.tscStable = false := hun
    rintro ⟨⟩
    rw [hstable]
    split
    · exact h
    · have hr := hin (Bool.eq_false_iff.mpr ‹_›)
      exact h.goto ⟨hr.2, fun _ => h.now.trans hr.1⟩
  | case6 cpu ret hphase => -- load
    rintro ⟨⟩
    have hheld := h.held cpu
    rw [hphase] at hheld
    exact h.goto ⟨hheld.1, le_rfl, fun hb => ⟨hheld.2 hb, h.lastValue⟩⟩
  | case8 cpu ret last hphase => -- iterate
    rintro ⟨⟩
    exact h.tryOnce hphase
  | _ => exact nofun

theorem exec {as : List (PvOp n)} (hun : ∀ a ∈ as, Unstable a)
    (hin : Runs.AllSteps pvStep (Within ε) s as) (he : Runs.exec pvStep s as = some s') :
    PvInv ε b s' := by
  induction as generalizing s with
  | nil =>
    cases he
    exact h
  | cons a as ih =>
    obtain ⟨s₁, h₁, h₂⟩ := Option.bind_eq_some_iff.mp he
    rw [List.forall_mem_cons] at hun
    exact ih (h.step hun.1 hin.1 h₁) hun.2 (hin.2 s₁ h₁) h₂

end PvInv

theorem pvInv_start (now : Nat) : PvInv ε (.start n now) (.start n now) :=
  ⟨le_rfl, le_rfl, Nat.zero_le _, fun _ => trivial, [], rfl, by simp⟩

/-- Any state is a point to compare with. -/
theorem PvInv.rebase (h : PvInv ε b s) : PvInv ε s s where
  now := le_rfl
  lastValue := le_rfl
  notAhead := h.notAhead
  held := by
    intro c
    have hc := h.held c
    cases hp : s.phase c with
    | read ret =>
      rw [hp] at hc
      exact ⟨hc.1, fun hidle => nomatch hp.symm.trans hidle⟩
    | trying ret last =>
      rw [hp] at hc
      exact ⟨hc.1, hc.2.1, fun hidle => nomatch hp.symm.trans hidle⟩
    | idle | reading => trivial
  returned := ⟨[], by simp, by simp⟩

/-- What is returned before `s` is at most `last_value` there, and what is returned after it, by a
processor that is idle in `s`, is at least that and as late as `s`, but for `ε`. -/
theorem pvInv_split {now : Nat} {as bs : List (PvOp n)} (hun : ∀ a ∈ as ++ bs, Unstable a)
    (hin : Runs.AllSteps pvStep (Within ε) (.start n now) (as ++ bs))
    (has : Runs.exec pvStep (.start n now) as = some s) (hbs : Runs.exec pvStep s bs = some s') :
    (∀ q ∈ s.returned, q.2 ≤ s.lastValue) ∧ PvInv ε s s' := by
  rw [List.forall_mem_append] at hun
  have hs := (pvInv_start now).exec hun.1 hin.of_append has
  obtain ⟨before, hbefore, hle⟩ := hs.returned
  refine ⟨fun q hq => ?_, hs.rebase.exec hun.2 (hin.after_exec has) hbs⟩
  have hq' : q ∈ before := by simpa [hbefore, PvGuest.start] using hq
  exact (hle q hq').1

/-! ## Order and accuracy -/

/-- Every run is accurate up to some bound. -/
theorem exists_within (s : PvGuest n) (as : List (PvOp n)) :
    ∃ ε₀, ∀ ε, ε₀ ≤ ε → Runs.AllSteps pvStep (Within ε) s as := by
  induction as generalizing s with
  | nil => exact ⟨0, fun _ _ => trivial⟩
  | cons a as ih =>
    obtain ⟨ε₁, hrest⟩ : ∃ ε₁, ∀ ε, ε₁ ≤ ε → ∀ s₁, pvStep s a = some s₁ →
        Runs.AllSteps pvStep (Within ε) s₁ as := by
      cases pvStep s a with
      | none => exact ⟨0, fun _ _ _ h => nomatch h⟩
      | some s₁ =>
        obtain ⟨ε₁, h₁⟩ := ih s₁
        exact ⟨ε₁, fun ε hε _ h => Option.some.inj h ▸ h₁ ε hε⟩
    cases a with
    | readCycles cpu r =>
      exact ⟨ε₁ + s.now + r.ret, fun ε hε => ⟨fun _ => by omega, hrest ε (by omega)⟩⟩
    | _ => exact ⟨ε₁, fun ε hε => ⟨trivial, hrest ε hε⟩⟩

/-- **No read goes back.** Take any order of steps of any number of processors, from the load of the
module on, and any state `s` on the way. What a processor that is idle there returns from then on is
not less than anything that any processor has returned before. -/
theorem pvclock_reads_never_go_back (now : Nat) (as bs : List (PvOp n)) (s s' : PvGuest n)
    (hun : ∀ a ∈ as ++ bs, Unstable a) (has : Runs.exec pvStep (.start n now) as = some s)
    (hbs : Runs.exec pvStep s bs = some s') :
    ∃ new, s'.returned = s.returned ++ new
      ∧ ∀ r ∈ new, s.phase r.1 = .idle → ∀ q ∈ s.returned, q.2 ≤ r.2 := by
  obtain ⟨ε, hin⟩ := exists_within (.start n now) (as ++ bs)
  obtain ⟨hle, hinv⟩ := pvInv_split hun (hin ε le_rfl) has hbs
  obtain ⟨new, hnew, hgiven⟩ := hinv.returned
  -- `last_value` in `s` lies between the two
  exact ⟨new, hnew, fun r hr hidle q hq => (hle q hq).trans ((hgiven r hr).2 hidle).2⟩

/-- A processor reads the time; a turn stores the reading, the next one finds it. -/
def firstRead (cpu : Fin 2) : List (PvOp 2) :=
  [.enter cpu, .readCycles cpu ⟨2, 100, false, 2, 2⟩, .load cpu, .iterate cpu, .iterate cpu]

/-- Then another one, whose record is five behind and was being written to at first. -/
def laggingRead (cpu : Fin 2) : List (PvOp 2) :=
  [.enter cpu, .readCycles cpu ⟨3, 0, false, 3, 4⟩, .readCycles cpu ⟨4, 95, false, 4, 4⟩, .load cpu,
    .iterate cpu]

theorem pvclock_reads_never_go_back_lagging :
    ∃ s s', Runs.exec pvStep (.start 2 100) (firstRead 0) = some s
      ∧ Runs.exec pvStep s (laggingRead 1) = some s' ∧ s'.returned = [(0, 100), (1, 100)]
      ∧ ∃ new, s'.returned = s.returned ++ new
        ∧ ∀ r ∈ new, s.phase r.1 = .idle → ∀ q ∈ s.returned, q.2 ≤ r.2 := by
  refine ⟨_, _, rfl, rfl, rfl,
    pvclock_reads_never_go_back 100 (firstRead 0) (laggingRead 1) _ _ ?_ rfl rfl⟩
  simp [firstRead, laggingRead, Unstable]

/-- **The reads stay accurate.** If every reading of a record is within `ε` of the time it is made
at, then so is what the reads return, though it may be the reading of another processor at another
time: a read that begins in `s` or later and has returned in `s'` gives a time from `s.now - ε` to
`s'.now + ε`. -/
theorem pvclock_reads_stay_accurate (now ε : Nat) (as bs : List (PvOp n)) (s s' : PvGuest n)
    (hun : ∀ a ∈ as ++ bs, Unstable a)
    (hin : Runs.AllSteps pvStep (Within ε) (.start n now) (as ++ bs))
    (has : Runs.exec pvStep (.start n now) as = some s) (hbs : Runs.exec pvStep s bs = some s') :
    ∃ new, s'.returned = s.returned ++ new
      ∧ ∀ r ∈ new, s.phase r.1 = .idle → s.now ≤ r.2 + ε ∧ r.2 ≤ s'.now + ε := by
  obtain ⟨-, hinv⟩ := pvInv_split hun hin has hbs
  obtain ⟨new, hnew, hgiven⟩ := hinv.returned
  exact ⟨new, hnew, fun r hr hidle =>
    ⟨((hgiven r hr).2 hidle).1, (hgiven r hr).1.trans hinv.notAhead⟩⟩

theorem pvclock_reads_stay_accurate_lagging :
    ∃ s s', Runs.exec pvStep (.start 2 100) (firstRead 0) = some s
      ∧ Runs.exec pvStep s (laggingRead 1) = some s'
      ∧ ∃ new, s'.returned = s.returned ++ new
        ∧ ∀ r ∈ new, s.phase r.1 = .idle → s.now ≤ r.2 + 5 ∧ r.2 ≤ s'.now + 5 := by
  refine ⟨_, _, rfl, rfl,
    pvclock_reads_stay_accurate 100 5 (firstRead 0) (laggingRead 1) _ _ ?_ ?_ rfl rfl⟩
  · simp [firstRead, laggingRead, Unstable]
  · simp [firstRead, laggingRead, Runs.AllSteps, pvStep, Within, PvGuest.start, PvGuest.goto,
      PvGuest.leave, PvGuest.tryOnce, atomic64Cmpxchg, PvReading.torn, Function.update]

end Qot
