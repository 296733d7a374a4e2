import Mathlib.Data.String.Basic
import QotStack.Lib.RunningMin

/-!
# QotStack — the coordinator of a timeline (`Coordinator.cpp`)

Every node runs a coordinator for each timeline it takes part in. Once a heartbeat it publishes its
view of the timeline and reads what the others have published: the node with the best accuracy, ties
broken by name, is to be the master, and everyone synchronises in the master's domain.

The data distribution service keeps the latest sample per key, and the key is the name of the
*node*: samples of two timelines on one host replace each other. `Host` is a coordinator with its
reader; its three operations are a heartbeat, the arrival of a sample and an update of the accuracy.
Accuracies come from any linear order.

A heartbeat is a timeout check (`checkTimeout`), the publication, and an election (`elect`) that
folds over the samples in whatever order the reader returns them. The lemmas below say what the fold
computes: the least pair of accuracy and name (`scan_best`), the domain that came with it
(`scan_newdomain`), and its own domain, which only a clash changes (`scan_domain`). Restarting the
synchronisation service is left out: it reads the domain and the master and changes neither.
-/

namespace Qot

variable {α : Type}

/-- What a node publishes about a timeline (`qot_msgs::TimelineType`). -/
structure TimelineType (α : Type) where
  uuid : String
  name : String
  accuracy : α
  master : String
  domain : Int16
  deriving DecidableEq, Repr

/-- `counter` counts the heartbeats, `lastcount` is its value when the master was last heard. -/
structure Coordinator (α : Type) where
  timeline : TimelineType α
  counter : Int32
  lastcount : Int32
  deriving DecidableEq, Repr

/-- In units of heartbeats. -/
def masterTimeout : Int32 := 3

def newMasterWait : Int32 := 3

/-! ## The coordinator -/

namespace Coordinator

/-- A coordinator once `Start` has run. -/
def start (uuid name : String) (accuracy : α) (domain : Int16) : Coordinator α :=
  ⟨⟨uuid, name, accuracy, "", domain⟩, 0, 0⟩

/-- A new accuracy makes the master unknown again. -/
def update (c : Coordinator α) (accuracy : α) : Coordinator α :=
  { c with timeline := { c.timeline with accuracy := accuracy, master := "" } }

/-- The listener: it looks at the name of a sample, and not at its timeline. -/
def onDataAvailable (c : Coordinator α) (samples : List (TimelineType α)) :
    Coordinator α :=
  samples.foldl
    (fun c s =>
      if s.name = c.timeline.master ∧ c.timeline.master ≠ c.timeline.name then
        { c with lastcount := c.counter }
      else c)
    c

/-- The node follows another one. -/
abbrev IsSlave (c : Coordinator α) : Prop :=
  c.timeline.name ≠ c.timeline.master ∧ c.timeline.master ≠ ""

/-- The next heartbeat finds the master timed out. -/
abbrev TimedOut (c : Coordinator α) : Prop :=
  c.IsSlave ∧ masterTimeout < c.counter + 1 - c.lastcount

/-- The first part of a heartbeat. -/
def checkTimeout (c : Coordinator α) : Coordinator α :=
  let counter := c.counter + 1
  if c.timeline.name ≠ c.timeline.master ∧ c.timeline.master ≠ ""
      ∧ counter - c.lastcount > masterTimeout then
    { timeline := { c.timeline with master := "" }, counter := counter, lastcount := counter }
  else { c with counter := counter }

end Coordinator

/-- The loop variables of the election. `domain` is the node's own, `calls` counts the calls of
`rand`. -/
structure Scan (α : Type) where
  domain : Int16
  minacc : α
  newmaster : String
  newdomain : Int16
  calls : Nat
  deriving DecidableEq, Repr

/-- One sample. A master that finds another master in its domain moves to a random one. -/
def scanSample [LinearOrder α] (rand : Nat → Nat) (me : TimelineType α) (st : Scan α)
    (s : TimelineType α) : Scan α :=
  if s.uuid ≠ me.uuid then
    if s.domain = st.domain ∧ me.name = me.master ∧ s.name = s.master then
      { st with domain := Int16.ofNat (rand st.calls % 128), calls := st.calls + 1 }
    else st
  else if s.name = me.name then st
  else if s.accuracy < st.minacc then
    { st with minacc := s.accuracy, newmaster := s.name, newdomain := s.domain }
  else if s.accuracy = st.minacc ∧ s.name < st.newmaster then
    { st with newmaster := s.name, newdomain := s.domain }
  else st

/-- The candidate the election starts from: the master in office, or the node itself. -/
def TimelineType.incumbent (me : TimelineType α) : String :=
  if me.master = "" then me.name else me.master

def scan [LinearOrder α] (rand : Nat → Nat) (me : TimelineType α)
    (samples : List (TimelineType α)) : Scan α :=
  samples.foldl (scanSample rand me) ⟨me.domain, me.accuracy, me.incumbent, me.domain, 0⟩

/-- A node that has just lost its master waits before it elects a new one. -/
abbrev Coordinator.Waiting (c : Coordinator α) : Prop :=
  c.timeline.master = "" ∧ c.counter - c.lastcount < newMasterWait

/-- The last part of a heartbeat. A change of master overwrites the domain, a master kept leaves
it. -/
def Coordinator.elect [LinearOrder α] (rand : Nat → Nat) (samples : List (TimelineType α))
    (c : Coordinator α) : Coordinator α :=
  if c.Waiting then c
  else
    let st := scan rand c.timeline samples
    if st.newmaster ≠ c.timeline.master then
      { c with timeline := { c.timeline with master := st.newmaster, domain := st.newdomain } }
    else { c with timeline := { c.timeline with domain := st.domain } }

/-! ## The coordinator and its reader -/

structure Host (α : Type) where
  coordinator : Coordinator α
  reader : List (TimelineType α)
  deriving DecidableEq, Repr

/-- The reader after a sample has come in: it replaces the one with its key. -/
def keepLatest (reader : List (TimelineType α)) (s : TimelineType α) : List (TimelineType α) :=
  s :: reader.filter fun r => r.name ≠ s.name

def Host.arrive (h : Host α) (s : TimelineType α) : Host α :=
  ⟨h.coordinator.onDataAvailable [s], keepLatest h.reader s⟩

/-- What the reader holds when the election reads it: a timeout takes everything out. -/
def Host.readable (h : Host α) : List (TimelineType α) :=
  if h.coordinator.TimedOut then [] else h.reader

/-- The sample a heartbeat publishes, before it elects. -/
def Host.written (h : Host α) : TimelineType α := h.coordinator.checkTimeout.timeline

/-- A heartbeat that reads `view`. -/
def Host.heartbeat [LinearOrder α] (h : Host α) (rand : Nat → Nat)
    (view : List (TimelineType α)) : Host α :=
  ⟨h.coordinator.checkTimeout.elect rand view, h.readable⟩

def Host.update (h : Host α) (accuracy : α) : Host α :=
  ⟨h.coordinator.update accuracy, h.reader⟩

/-! ## What a heartbeat does -/

variable {c : Coordinator α}

theorem checkTimeout_of_timedOut (h : c.TimedOut) :
    c.checkTimeout = ⟨{ c.timeline with master := "" }, c.counter + 1, c.counter + 1⟩ :=
  if_pos ⟨h.1.1, h.1.2, h.2⟩

theorem checkTimeout_of_not_timedOut (h : ¬ c.TimedOut) :
    c.checkTimeout = { c with counter := c.counter + 1 } :=
  if_neg fun hc => h ⟨⟨hc.1, hc.2.1⟩, hc.2.2⟩

/-- A master that has just timed out is not replaced in the same heartbeat. -/
theorem checkTimeout_waiting (h : c.TimedOut) : c.checkTimeout.Waiting := by
  rw [checkTimeout_of_timedOut h]
  refine ⟨rfl, ?_⟩
  show c.counter + 1 - (c.counter + 1) < 3
  rw [Int32.sub_self]
  decide

/-- The parts of the timeline that say who the node is. -/
def TimelineType.SameNode (a b : TimelineType α) : Prop := a.uuid = b.uuid ∧ a.name = b.name

theorem checkTimeout_sameNode (c : Coordinator α) :
    c.checkTimeout.timeline.SameNode c.timeline := by
  unfold Coordinator.checkTimeout
  dsimp only
  split <;> exact ⟨rfl, rfl⟩

theorem written_domain (h : Host α) : h.written.domain = h.coordinator.timeline.domain := by
  unfold Host.written Coordinator.checkTimeout
  dsimp only
  split <;> rfl

theorem readable_subset (h : Host α) : h.readable ⊆ h.reader := by
  unfold Host.readable
  split
  · exact List.nil_subset _
  · exact List.Subset.refl _

/-- A sample that arrives changes nothing but the time the master was last heard. -/
theorem arrive_coordinator (h : Host α) (s : TimelineType α) :
    (h.arrive s).coordinator
      = if s.name = h.coordinator.timeline.master
            ∧ h.coordinator.timeline.master ≠ h.coordinator.timeline.name then
          { h.coordinator with lastcount := h.coordinator.counter }
        else h.coordinator := rfl

theorem arrive_timeline (h : Host α) (s : TimelineType α) :
    (h.arrive s).coordinator.timeline = h.coordinator.timeline := by
  rw [arrive_coordinator]
  split <;> rfl

/-- The samples an election considers: those of other nodes of the timeline. -/
def rivals (me : TimelineType α) (samples : List (TimelineType α)) : List (TimelineType α) :=
  samples.filter fun s => s.uuid = me.uuid ∧ s.name ≠ me.name

theorem mem_rivals {me s : TimelineType α} {samples : List (TimelineType α)} :
    s ∈ rivals me samples ↔ s ∈ samples ∧ s.uuid = me.uuid ∧ s.name ≠ me.name := by
  simp [rivals]

theorem rivals_cons_subset (me s : TimelineType α) (samples : List (TimelineType α)) :
    rivals me samples ⊆ rivals me (s :: samples) := by
  intro r hr
  obtain ⟨hmem, hrival⟩ := mem_rivals.mp hr
  exact mem_rivals.mpr ⟨List.mem_cons_of_mem s hmem, hrival⟩

section Election

variable [LinearOrder α]

@[simp] theorem elect_counter (rand : Nat → Nat) (samples : List (TimelineType α))
    (c : Coordinator α) : (c.elect rand samples).counter = c.counter := by
  unfold Coordinator.elect
  split
  · rfl
  · dsimp only
    split <;> rfl

@[simp] theorem elect_lastcount (rand : Nat → Nat) (samples : List (TimelineType α))
    (c : Coordinator α) : (c.elect rand samples).lastcount = c.lastcount := by
  unfold Coordinator.elect
  split
  · rfl
  · dsimp only
    split <;> rfl

/-- The master after an election, whether or not it is a new one. -/
theorem elect_master {c : Coordinator α} (h : ¬ c.Waiting) (rand : Nat → Nat)
    (samples : List (TimelineType α)) :
    (c.elect rand samples).timeline.master = (scan rand c.timeline samples).newmaster := by
  unfold Coordinator.elect
  rw [if_neg h]
  dsimp only
  split
  · rfl
  · next heq => exact (not_not.mp heq).symm

theorem elect_sameNode (rand : Nat → Nat) (samples : List (TimelineType α)) (c : Coordinator α) :
    (c.elect rand samples).timeline.SameNode c.timeline := by
  unfold Coordinator.elect
  split
  · exact ⟨rfl, rfl⟩
  · dsimp only
    split <;> exact ⟨rfl, rfl⟩

theorem heartbeat_sameNode (h : Host α) (rand : Nat → Nat) (view : List (TimelineType α)) :
    (h.heartbeat rand view).coordinator.timeline.SameNode h.coordinator.timeline := by
  obtain ⟨huuid, hname⟩ := elect_sameNode rand view h.coordinator.checkTimeout
  obtain ⟨huuid', hname'⟩ := checkTimeout_sameNode h.coordinator
  exact ⟨huuid.trans huuid', hname.trans hname'⟩

/-! ## The election's loop -/

section
variable (rand : Nat → Nat)

/-- One sample, seen from the pair of accuracy and name: a running minimum over the rivals. -/
theorem scanSample_best (me : TimelineType α) (st : Scan α) (s : TimelineType α) :
    ((scanSample rand me st s).minacc, (scanSample rand me st s).newmaster)
      = if s.uuid = me.uuid ∧ s.name ≠ me.name then
          RunningMin.keepLess (st.minacc, st.newmaster) (s.accuracy, s.name)
        else (st.minacc, st.newmaster) := by
  unfold scanSample
  by_cases huuid : s.uuid = me.uuid
  · by_cases hname : s.name = me.name
    · simp [huuid, hname]
    · simp only [huuid, hname, ne_eq, not_true_eq_false, not_false_eq_true, and_self, if_false,
        if_true]
      unfold RunningMin.keepLess
      split
      · rfl
      · split
        · rfl
        · rfl
  · simp only [huuid, ne_eq, not_false_eq_true, if_true, false_and, if_false]
    split <;> rfl

/-- **The loop finds the least pair** of the incumbent, at the node's own accuracy, and the
rivals. -/
theorem scan_best (me : TimelineType α) (samples : List (TimelineType α)) :
    ((scan rand me samples).minacc, (scan rand me samples).newmaster)
      = ((rivals me samples).map fun s => (s.accuracy, s.name)).foldl RunningMin.keepLess
          (me.accuracy, me.incumbent) := by
  have hfold : ∀ st : Scan α,
      ((samples.foldl (scanSample rand me) st).minacc,
        (samples.foldl (scanSample rand me) st).newmaster)
        = ((rivals me samples).map fun s => (s.accuracy, s.name)).foldl RunningMin.keepLess
            (st.minacc, st.newmaster) := by
    induction samples with
    | nil => exact fun st => rfl
    | cons s samples ih =>
      intro st
      rw [List.foldl_cons, ih, scanSample_best]
      unfold rivals
      rw [List.filter_cons]
      by_cases hs : s.uuid = me.uuid ∧ s.name ≠ me.name
      · simp only [hs, ne_eq, not_false_eq_true, and_self, if_true, decide_true, List.map_cons,
          List.foldl_cons]
      · simp only [hs, if_false, decide_false, Bool.false_eq_true]
  exact hfold _

/-- The sample would win an election against the incumbent, at the node's own accuracy. -/
abbrev TimelineType.Beats (s me : TimelineType α) : Prop :=
  s.accuracy < me.accuracy ∨ (s.accuracy = me.accuracy ∧ s.name < me.incumbent)

/-- One sample: the candidate stays, or accuracy, name and domain come together from a rival that is
better. -/
theorem scanSample_cases (me : TimelineType α) (st : Scan α) (s : TimelineType α) :
    ((scanSample rand me st s).minacc = st.minacc
        ∧ (scanSample rand me st s).newmaster = st.newmaster
        ∧ (scanSample rand me st s).newdomain = st.newdomain)
      ∨ ((s.uuid = me.uuid ∧ s.name ≠ me.name)
        ∧ toLex (s.accuracy, s.name) < toLex (st.minacc, st.newmaster)
        ∧ (scanSample rand me st s).minacc = s.accuracy
        ∧ (scanSample rand me st s).newmaster = s.name
        ∧ (scanSample rand me st s).newdomain = s.domain) := by
  unfold scanSample
  split_ifs with h₁ h₂ h₃ h₄ h₅
  · exact Or.inl ⟨rfl, rfl, rfl⟩
  · exact Or.inl ⟨rfl, rfl, rfl⟩
  · exact Or.inl ⟨rfl, rfl, rfl⟩
  · exact Or.inr ⟨⟨not_not.mp h₁, h₃⟩, Prod.Lex.toLex_lt_toLex.mpr (Or.inl h₄), rfl, rfl, rfl⟩
  · exact Or.inr ⟨⟨not_not.mp h₁, h₃⟩, Prod.Lex.toLex_lt_toLex.mpr (Or.inr h₅), h₅.1.symm, rfl,
      rfl⟩
  · exact Or.inl ⟨rfl, rfl, rfl⟩

/-- All samples, from any candidate. -/
theorem foldl_scanSample_cases (me : TimelineType α)
    (samples : List (TimelineType α)) (st : Scan α) :
    ((samples.foldl (scanSample rand me) st).newmaster = st.newmaster
        ∧ (samples.foldl (scanSample rand me) st).newdomain = st.newdomain)
      ∨ ∃ s ∈ rivals me samples, toLex (s.accuracy, s.name) < toLex (st.minacc, st.newmaster)
        ∧ (samples.foldl (scanSample rand me) st).newmaster = s.name
        ∧ (samples.foldl (scanSample rand me) st).newdomain = s.domain := by
  induction samples generalizing st with
  | nil => exact Or.inl ⟨rfl, rfl⟩
  | cons s samples ih =>
    have htail := rivals_cons_subset me s samples
    rw [List.foldl_cons]
    rcases scanSample_cases rand me st s with ⟨ha', hm', hd'⟩ | ⟨hs, hlt, ha', hm', hd'⟩
    · rcases ih (scanSample rand me st s) with ⟨hm, hd⟩ | ⟨r, hr, hbeat, hm, hd⟩
      · exact Or.inl ⟨hm.trans hm', hd.trans hd'⟩
      · rw [ha', hm'] at hbeat
        exact Or.inr ⟨r, htail hr, hbeat, hm, hd⟩
    · rcases ih (scanSample rand me st s) with ⟨hm, hd⟩ | ⟨r, hr, hbeat, hm, hd⟩
      · exact Or.inr ⟨s, mem_rivals.mpr ⟨List.mem_cons_self, hs⟩, hlt, hm.trans hm',
          hd.trans hd'⟩
      · rw [ha', hm'] at hbeat
        exact Or.inr ⟨r, htail hr, hbeat.trans hlt, hm, hd⟩

/-- The new master is the incumbent, with the node's own domain, or a rival that beats it, with the
rival's domain. -/
theorem scan_newdomain (me : TimelineType α) (samples : List (TimelineType α)) :
    ((scan rand me samples).newmaster = me.incumbent
        ∧ (scan rand me samples).newdomain = me.domain)
      ∨ ∃ s ∈ rivals me samples, s.Beats me ∧ (scan rand me samples).newmaster = s.name
        ∧ (scan rand me samples).newdomain = s.domain := by
  rcases foldl_scanSample_cases rand me samples
    ⟨me.domain, me.accuracy, me.incumbent, me.domain, 0⟩ with hkept | ⟨s, hs, hlt, h⟩
  · exact Or.inl hkept
  · exact Or.inr ⟨s, hs, Prod.Lex.toLex_lt_toLex.mp hlt, h⟩

end

/-- Only a master changes its domain during the loop. -/
theorem scan_domain {me : TimelineType α} (h : me.name ≠ me.master) (rand : Nat → Nat)
    (samples : List (TimelineType α)) : (scan rand me samples).domain = me.domain := by
  have hstep : ∀ (st : Scan α) (s : TimelineType α),
      (scanSample rand me st s).domain = st.domain := by
    intro st s
    unfold scanSample
    split_ifs with h₁ h₂
    · exact absurd h₂.2.1 h
    all_goals rfl
  have hfold : ∀ st : Scan α, (samples.foldl (scanSample rand me) st).domain = st.domain := by
    induction samples with
    | nil => exact fun st => rfl
    | cons s samples ih => exact fun st => (ih _).trans (hstep st s)
  exact hfold _

variable {rand : Nat → Nat}

/-- A slave after an election has kept its master and its domain, or has taken both from a better
rival that was not its master. -/
theorem elect_slave_cases {c : Coordinator α} {samples : List (TimelineType α)}
    (hslave : (c.elect rand samples).IsSlave) :
    (c.IsSlave ∧ (c.elect rand samples).timeline.master = c.timeline.master
        ∧ (c.elect rand samples).timeline.domain = c.timeline.domain)
      ∨ ∃ s ∈ rivals c.timeline samples, s.Beats c.timeline ∧ s.name ≠ c.timeline.master
        ∧ (c.elect rand samples).timeline.master = s.name
        ∧ (c.elect rand samples).timeline.domain = s.domain := by
  revert hslave
  fun_cases Coordinator.elect rand samples c with
  | case1 hwait => exact fun hslave => absurd hwait.1 hslave.2
  | case2 hwait st hnew =>
    intro hslave
    rcases scan_newdomain rand c.timeline samples with ⟨hm, -⟩ | ⟨s, hs, hbeats, hm, hd⟩
    · -- the incumbent is the master it had, or the node itself
      unfold TimelineType.incumbent at hm
      split at hm
      · exact absurd hm.symm hslave.1
      · exact absurd hm hnew
    · exact Or.inr ⟨s, hs, hbeats, hm ▸ hnew, hm, hd⟩
  | case3 hwait st hkept =>
    intro hslave
    have hne : c.timeline.name ≠ c.timeline.master := hslave.1
    exact Or.inl ⟨hslave, rfl, scan_domain hne rand samples⟩

theorem heartbeat_slave_cases {h : Host α} {view : List (TimelineType α)}
    (hslave : (h.heartbeat rand view).coordinator.IsSlave) :
    ¬ h.coordinator.TimedOut
      ∧ ((h.coordinator.IsSlave
        ∧ (h.heartbeat rand view).coordinator.timeline.master = h.coordinator.timeline.master
        ∧ (h.heartbeat rand view).coordinator.timeline.domain = h.coordinator.timeline.domain)
      ∨ ∃ s ∈ rivals h.coordinator.timeline view, s.Beats h.coordinator.timeline
        ∧ s.name ≠ h.coordinator.timeline.master
        ∧ (h.heartbeat rand view).coordinator.timeline.master = s.name
        ∧ (h.heartbeat rand view).coordinator.timeline.domain = s.domain) := by
  unfold Host.heartbeat at hslave ⊢
  dsimp only at hslave ⊢
  by_cases hout : h.coordinator.TimedOut
  · -- the master is dropped and none is elected
    have hwait := checkTimeout_waiting hout
    unfold Coordinator.elect at hslave
    rw [if_pos hwait] at hslave
    exact absurd hwait.1 hslave.2
  · rw [checkTimeout_of_not_timedOut hout] at hslave ⊢
    exact ⟨hout, elect_slave_cases hslave⟩

theorem heartbeat_counter (h : Host α) (rand : Nat → Nat) (view : List (TimelineType α)) :
    (h.heartbeat rand view).coordinator.counter = h.coordinator.counter + 1 := by
  unfold Host.heartbeat
  rw [elect_counter]
  by_cases hout : h.coordinator.TimedOut
  · rw [checkTimeout_of_timedOut hout]
  · rw [checkTimeout_of_not_timedOut hout]

theorem heartbeat_lastcount (h : Host α) (rand : Nat → Nat) (view : List (TimelineType α)) :
    (h.heartbeat rand view).coordinator.lastcount
      = if h.coordinator.TimedOut then h.coordinator.counter + 1
        else h.coordinator.lastcount := by
  unfold Host.heartbeat
  rw [elect_lastcount]
  split
  · next hout => rw [checkTimeout_of_timedOut hout]
  · next hout => rw [checkTimeout_of_not_timedOut hout]

/-- A slave that keeps its master over a heartbeat was its slave before, and in time. -/
theorem heartbeat_kept {h : Host α} {view : List (TimelineType α)}
    (hslave : (h.heartbeat rand view).coordinator.IsSlave)
    (hkept : (h.heartbeat rand view).coordinator.timeline.master = h.coordinator.timeline.master) :
    h.coordinator.IsSlave ∧ ¬ h.coordinator.TimedOut := by
  refine ⟨?_, (heartbeat_slave_cases hslave).1⟩
  have hname := (heartbeat_sameNode h rand view).2
  unfold Coordinator.IsSlave at hslave ⊢
  rwa [hname, hkept] at hslave

end Election

end Qot
