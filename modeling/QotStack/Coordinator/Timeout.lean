import Mathlib.Data.List.Perm.Basic
import QotStack.Lib.Runs
import QotStack.Coordinator.Heartbeat

/-!
# QotStack — the timeout of the master

A slave drops its master after `MASTER_TIMEOUT` heartbeats without a sample of it. The listener
marks in `lastcount` when a sample of the master comes in, and a heartbeat compares it with its own
count.

Two things are missing. The listener looks at the name of the sample and not at its timeline, so the
samples a host publishes for another timeline keep its name alive (`OwnTimelineOnly` excludes them).
And an election does not set `lastcount`: a new master is measured against whatever was heard before
it, and unless it is heard before the next heartbeat it is dropped at once (`HeardInTime` excludes
that). `master_timeout` says that nothing else goes wrong, in any run of one node with arbitrary
samples coming in.
-/

namespace Qot

variable {α : Type}

/-- A node with what it could know about its master. `heard` is not in the code: a sample of the
master, for this timeline, has come in since it became the master. -/
structure Listener (α : Type) where
  host : Host α
  heard : Bool
  deriving DecidableEq, Repr

abbrev Listener.coordinator (l : Listener α) : Coordinator α := l.host.coordinator

abbrev Listener.timeline (l : Listener α) : TimelineType α := l.host.coordinator.timeline

inductive HostOp (α : Type) where
  | arrive (s : TimelineType α)
  | heartbeat (rand : Nat → Nat) (view : List (TimelineType α))
  | update (accuracy : α)

def Listener.start (uuid name : String) (accuracy : α) (domain : Int16) : Listener α :=
  ⟨⟨Coordinator.start uuid name accuracy domain, []⟩, false⟩

/-- A sample of the node's master for the node's timeline. -/
abbrev Listener.OfMaster (l : Listener α) (s : TimelineType α) : Prop :=
  s.uuid = l.timeline.uuid ∧ s.name = l.timeline.master

/-- A step. A heartbeat at the largest count has none: a signed integer that overflows is
undefined. -/
def listenStep [LinearOrder α] (l : Listener α) : HostOp α → Option (Listener α)
  | .arrive s => some ⟨l.host.arrive s, l.heard || decide (l.OfMaster s)⟩
  | .heartbeat rand view =>
    if view.Perm l.host.readable ∧ l.coordinator.counter < Int32.maxValue then
      let host := l.host.heartbeat rand view
      some ⟨host, l.heard && decide (host.coordinator.timeline.master = l.timeline.master)⟩
    else none
  | .update accuracy => some ⟨l.host.update accuracy, false⟩

/-- The number of heartbeats in a run. -/
def heartbeats : List (HostOp α) → Nat
  | [] => 0
  | .heartbeat _ _ :: ops => heartbeats ops + 1
  | _ :: ops => heartbeats ops

theorem heartbeats_cons (op : HostOp α) (ops : List (HostOp α)) :
    heartbeats (op :: ops) = heartbeats [op] + heartbeats ops := by
  cases op with
  | heartbeat rand view => exact Nat.add_comm _ _
  | arrive s => exact (Nat.zero_add _).symm
  | update accuracy => exact (Nat.zero_add _).symm

/-- No sample of the master that `l` has comes in. -/
def Silent (l : Listener α) (ops : List (HostOp α)) : Prop :=
  ∀ s, .arrive s ∈ ops → ¬ l.OfMaster s

/-! ## The counts as numbers -/

/-- The mark is not ahead of the count. -/
structure Coordinator.Counted (c : Coordinator α) : Prop where
  nonneg : 0 ≤ c.lastcount.toInt
  le : c.lastcount.toInt ≤ c.counter.toInt

section Counts

variable {c : Coordinator α}

theorem toInt_counter_add_one (hroom : c.counter < Int32.maxValue) :
    (c.counter + 1).toInt = c.counter.toInt + 1 := by
  have hlt := Int32.lt_iff_toInt_lt.mp hroom
  have hge := c.counter.le_toInt
  rw [Int32.toInt_maxValue] at hlt
  rw [Int32.toInt_add, Int32.toInt_one, Int.bmod_eq_of_le (by omega) (by omega)]

/-- At the largest count the silence comes out negative. -/
theorem toInt_silence_le (h : c.Counted) : (c.counter + 1 - c.lastcount).toInt
    ≤ c.counter.toInt + 1 - c.lastcount.toInt := by
  have hlt := c.counter.toInt_lt
  obtain ⟨hnonneg, hle⟩ := h
  rw [Int32.toInt_sub, Int32.toInt_add, Int32.toInt_one, Int.bmod_sub_bmod, Int.bmod]
  omega

theorem toInt_silence (h : c.Counted) (hroom : c.counter < Int32.maxValue) :
    (c.counter + 1 - c.lastcount).toInt = c.counter.toInt + 1 - c.lastcount.toInt := by
  have hcount := toInt_counter_add_one hroom
  obtain ⟨hnonneg, hle⟩ := h
  rw [Int32.toInt_sub_of_le _ _ (Int32.le_iff_toInt_le.mpr hnonneg)
    (Int32.le_iff_toInt_le.mpr (by omega)), hcount]

end Counts

/-! ## One step -/

section Steps

variable [LinearOrder α] {l l' : Listener α}

theorem listenStep_heartbeat {rand : Nat → Nat} {view : List (TimelineType α)}
    (h : listenStep l (.heartbeat rand view) = some l') :
    l.coordinator.counter < Int32.maxValue
      ∧ l' = ⟨l.host.heartbeat rand view, l.heard && decide
          ((l.host.heartbeat rand view).coordinator.timeline.master = l.timeline.master)⟩ := by
  by_cases hview : view.Perm l.host.readable ∧ l.coordinator.counter < Int32.maxValue
  · simp only [listenStep, if_pos hview, Option.some.injEq] at h
    exact ⟨hview.2, h.symm⟩
  · simp only [listenStep, if_neg hview, reduceCtorEq] at h

theorem listenStep_sameNode {op : HostOp α} (h : listenStep l op = some l') :
    l'.timeline.SameNode l.timeline := by
  cases op with
  | arrive s =>
    cases h
    have htl := arrive_timeline l.host s
    exact ⟨congrArg _ htl, congrArg _ htl⟩
  | heartbeat rand view =>
    obtain ⟨-, rfl⟩ := listenStep_heartbeat h
    exact heartbeat_sameNode l.host rand view
  | update accuracy =>
    cases h
    exact ⟨rfl, rfl⟩

theorem listenStep_counter {op : HostOp α} (h : listenStep l op = some l') :
    l'.coordinator.counter.toInt = l.coordinator.counter.toInt + heartbeats [op] := by
  cases op with
  | arrive s =>
    cases h
    show (l.host.arrive s).coordinator.counter.toInt = l.coordinator.counter.toInt + 0
    rw [Int.add_zero, arrive_coordinator]
    split <;> rfl
  | heartbeat rand view =>
    obtain ⟨hroom, rfl⟩ := listenStep_heartbeat h
    exact (congrArg _ (heartbeat_counter l.host rand view)).trans (toInt_counter_add_one hroom)
  | update accuracy =>
    cases h
    exact (Int.add_zero _).symm

end Steps

/-! ## The two promises -/

section Promises

variable [LinearOrder α]

/-- A slave that hears nothing of its master for more than `MASTER_TIMEOUT` heartbeats does not keep
it all along. -/
def DropsSilentMaster (l₀ : Listener α) (ops : List (HostOp α)) : Prop :=
  ∀ pre seg post l l', ops = pre ++ (seg ++ post) → Runs.exec listenStep l₀ pre = some l →
    Runs.exec listenStep l seg = some l' → l.coordinator.IsSlave → Silent l seg →
    masterTimeout.toInt < heartbeats seg →
    ¬ Runs.AllStates listenStep (fun m => m.timeline.master = l.timeline.master) l seg

/-- A master does not time out at a heartbeat if a sample of it came in during the last
`MASTER_TIMEOUT` heartbeats, this one included. -/
def KeepsLiveMaster (l₀ : Listener α) (ops : List (HostOp α)) : Prop :=
  ∀ pre s mid rand view post l,
    ops = (pre ++ .arrive s :: mid) ++ .heartbeat rand view :: post →
    Runs.exec listenStep l₀ (pre ++ .arrive s :: mid) = some l → l.coordinator.IsSlave →
    l.OfMaster s → heartbeats mid < masterTimeout.toInt → ¬ l.coordinator.TimedOut

end Promises

/-- Samples that come in under the name of the master belong to the timeline of the slave. -/
def OwnTimelineOnly (l : Listener α) : HostOp α → Prop
  | .arrive s => l.coordinator.IsSlave → s.name = l.timeline.master → s.uuid = l.timeline.uuid
  | _ => True

/-- A slave that has not heard its master since it elected it runs a heartbeat only while the
master before it, or the loss of that master, is recent. -/
def HeardInTime (l : Listener α) : HostOp α → Prop
  | .heartbeat _ _ => l.coordinator.IsSlave → l.heard = true
      ∨ l.coordinator.counter + 1 - l.coordinator.lastcount ≤ masterTimeout
  | _ => True

instance (l : Listener α) (op : HostOp α) : Decidable (OwnTimelineOnly l op) := by
  unfold OwnTimelineOnly; split <;> infer_instance

instance (l : Listener α) (op : HostOp α) : Decidable (HeardInTime l op) := by
  unfold HeardInTime; split <;> infer_instance

/-! ## Silence -/

/-- A sample that is neither the master's nor in its name leaves the mark where it is. -/
theorem arrive_silent {l : Listener α} {s : TimelineType α} (hslave : l.coordinator.IsSlave)
    (hown : OwnTimelineOnly l (.arrive s)) (hsilent : ¬ l.OfMaster s) :
    (l.host.arrive s).coordinator = l.coordinator := by
  rw [arrive_coordinator, if_neg]
  rintro ⟨hname, -⟩
  exact hsilent ⟨hown hslave hname, hname⟩

section Runs

variable [LinearOrder α] {l l' : Listener α}

theorem counted_step {op : HostOp α} (h : l.coordinator.Counted) (hs : listenStep l op = some l') :
    l'.coordinator.Counted := by
  obtain ⟨hnonneg, hle⟩ : l.host.coordinator.Counted := h
  cases op with
  | arrive s =>
    cases hs
    show (l.host.arrive s).coordinator.Counted
    rw [arrive_coordinator]
    split
    · exact ⟨hnonneg.trans hle, le_refl _⟩
    · exact ⟨hnonneg, hle⟩
  | heartbeat rand view =>
    obtain ⟨hroom, rfl⟩ := listenStep_heartbeat hs
    have hcount : (l.host.coordinator.counter + 1).toInt = _ := toInt_counter_add_one hroom
    constructor
    · rw [heartbeat_lastcount]
      split <;> omega
    · rw [heartbeat_counter, heartbeat_lastcount]
      split <;> omega
  | update accuracy =>
    cases hs
    exact ⟨hnonneg, hle⟩

/-- A heartbeat over which a slave keeps its master was in time, and takes the count one further
from the mark. -/
theorem heartbeat_room {rand : Nat → Nat} {view : List (TimelineType α)}
    (hcounted : l.coordinator.Counted) (hroom : l.coordinator.counter < Int32.maxValue)
    (hslave : (l.host.heartbeat rand view).coordinator.IsSlave)
    (hkept : (l.host.heartbeat rand view).coordinator.timeline.master = l.timeline.master) :
    l.coordinator.counter.toInt + 1 - l.coordinator.lastcount.toInt ≤ masterTimeout.toInt
      ∧ (l.host.heartbeat rand view).coordinator.counter.toInt
          - (l.host.heartbeat rand view).coordinator.lastcount.toInt
        = l.coordinator.counter.toInt + 1 - l.coordinator.lastcount.toInt := by
  obtain ⟨hbefore, hintime⟩ := heartbeat_kept hslave hkept
  constructor
  · rw [← toInt_silence hcounted hroom, ← Int32.le_iff_toInt_le]
    exact Int32.not_lt.mp fun hlt => hintime ⟨hbefore, hlt⟩
  · rw [heartbeat_counter, heartbeat_lastcount, if_neg hintime, toInt_counter_add_one hroom]

/-- **Silence adds up.** As long as a slave keeps a master it does not hear, and no one else speaks
in its name, `lastcount` stands still, and so there is room for `MASTER_TIMEOUT` heartbeats only. -/
theorem silent_heartbeats {seg : List (HostOp α)} (hexec : Runs.exec listenStep l seg = some l')
    (hslave : l.coordinator.IsSlave) (hcounted : l.coordinator.Counted)
    (hown : Runs.AllSteps listenStep OwnTimelineOnly l seg) (hsilent : Silent l seg)
    (hkeep : Runs.AllStates listenStep (fun m => m.timeline.master = l.timeline.master) l seg) :
    heartbeats seg = 0
      ∨ heartbeats seg + (l.coordinator.counter.toInt - l.coordinator.lastcount.toInt)
        ≤ masterTimeout.toInt := by
  induction seg generalizing l with
  | nil => exact Or.inl rfl
  | cons op seg ih =>
    obtain ⟨l₁, hs, hrest⟩ := Option.bind_eq_some_iff.mp hexec
    -- the hypotheses hold of the rest: a step keeps the node, and this one its master too
    have hmaster : l₁.timeline.master = l.timeline.master := (hkeep.2 l₁ hs).head
    have hnode := listenStep_sameNode hs
    have hslave₁ : l₁.coordinator.IsSlave := by
      show l₁.timeline.name ≠ l₁.timeline.master ∧ l₁.timeline.master ≠ ""
      rw [hnode.2, hmaster]
      exact hslave
    have hsilent₁ : Silent l₁ seg := by
      intro s hmem hof
      refine hsilent s (List.mem_cons_of_mem op hmem) ?_
      unfold Listener.OfMaster at hof ⊢
      rwa [hnode.1, hmaster] at hof
    have hkeep₁ : Runs.AllStates listenStep
        (fun m => m.timeline.master = l₁.timeline.master) l₁ seg := by
      rw [hmaster]
      exact hkeep.2 l₁ hs
    have hrec := ih hrest hslave₁ (counted_step hcounted hs) (hown.2 l₁ hs) hsilent₁ hkeep₁
    cases op with
    | arrive s =>
      have hsame : l₁.coordinator = l.coordinator := by
        cases hs
        exact arrive_silent hslave hown.1 (hsilent s List.mem_cons_self)
      rw [hsame] at hrec
      exact hrec
    | heartbeat rand view =>
      obtain ⟨hroom, rfl⟩ := listenStep_heartbeat hs
      obtain ⟨hintime, hcount⟩ := heartbeat_room hcounted hroom hslave₁ hmaster
      have hcons : heartbeats (.heartbeat rand view :: seg) = heartbeats seg + 1 := rfl
      right
      rw [hcons]
      rcases hrec with hzero | hbound
      · rw [hzero]
        omega
      · simp only [hcount] at hbound
        omega
    | update accuracy =>
      -- a new accuracy would make the master unknown
      cases hs
      exact absurd rfl hslave₁.2

/-! ## A sample -/

/-- What a sample of `master` that came in at count `at₀` leaves for the rest of the run: a slave of
`master` that has heard it since its election has marked it at `at₀` or later. -/
structure MarkedSince (master : String) (at₀ : Int) (l : Listener α) : Prop where
  marked : l.coordinator.IsSlave → l.timeline.master = master → l.heard = true →
    at₀ ≤ l.coordinator.lastcount.toInt
  counted : at₀ ≤ l.coordinator.counter.toInt

theorem markedSince_arrive (l : Listener α) (s : TimelineType α)
    (h : listenStep l (.arrive s) = some l') :
    MarkedSince s.name l.coordinator.counter.toInt l' := by
  cases h
  refine ⟨fun hslave hmaster _ => ?_, ?_⟩
  · show _ ≤ (l.host.arrive s).coordinator.lastcount.toInt
    have htl := arrive_timeline l.host s
    have hname : s.name = l.timeline.master := by
      rw [← hmaster]
      exact congrArg _ htl
    have hne : l.timeline.master ≠ l.timeline.name := by
      have hne := hslave.1
      simp only [Listener.coordinator, htl] at hne
      exact hne.symm
    rw [arrive_coordinator, if_pos ⟨hname, hne⟩]
  · show _ ≤ (l.host.arrive s).coordinator.counter.toInt
    rw [arrive_coordinator]
    split <;> exact le_refl _

theorem markedSince_step {master : String} {at₀ : Int} {op : HostOp α}
    (hm : MarkedSince master at₀ l) (h : listenStep l op = some l') :
    MarkedSince master at₀ l' := by
  have hcount : at₀ ≤ l'.coordinator.counter.toInt := by
    rw [listenStep_counter h]
    exact hm.counted.trans (by omega)
  refine ⟨fun hslave hmaster hheard => ?_, hcount⟩
  cases op with
  | arrive s =>
    by_cases hname : s.name = master
    · -- the sample is of the same master, and makes a later mark
      rw [← hname] at hmaster
      exact hm.counted.trans ((markedSince_arrive l s h).marked hslave hmaster hheard)
    · have hnot : s.name ≠ l.timeline.master := by
        intro hof
        cases h
        exact hname (hof.trans ((congrArg _ (arrive_timeline l.host s)).symm.trans hmaster))
      have hother : ¬ l.OfMaster s := fun hof => hnot hof.2
      have hsame : (l.host.arrive s).coordinator = l.coordinator := by
        rw [arrive_coordinator, if_neg fun hof => hnot hof.1]
      cases h
      simp only [Listener.coordinator, Listener.timeline, hsame, hother, decide_false,
        Bool.or_false] at hslave hmaster hheard ⊢
      exact hm.marked hslave hmaster hheard
  | heartbeat rand view =>
    obtain ⟨-, rfl⟩ := listenStep_heartbeat h
    obtain ⟨hheard, hkept⟩ := Bool.and_eq_true_iff.mp hheard
    have hkept := of_decide_eq_true hkept
    obtain ⟨hslave₀, hintime⟩ := heartbeat_kept hslave hkept
    show _ ≤ (l.host.heartbeat rand view).coordinator.lastcount.toInt
    rw [heartbeat_lastcount, if_neg hintime]
    exact hm.marked hslave₀ (hkept.symm.trans hmaster) hheard
  | update accuracy =>
    cases h
    cases hheard

theorem exec_counter {ops : List (HostOp α)} (h : Runs.exec listenStep l ops = some l') :
    l'.coordinator.counter.toInt = l.coordinator.counter.toInt + heartbeats ops := by
  induction ops generalizing l with
  | nil =>
    cases h
    exact (Int.add_zero _).symm
  | cons op ops ih =>
    obtain ⟨l₁, hs, hrest⟩ := Option.bind_eq_some_iff.mp h
    rw [ih hrest, listenStep_counter hs, heartbeats_cons op ops]
    omega

/-! ## Whole runs -/

/-- **The timeout of the master is per timeline.** In every run of a node from its start: if only
samples of its own timeline come in under the name of its master, a silent master is dropped; and if
a slave runs no heartbeat too late after an election it has not heard the winner of, a master that
is heard is not. -/
theorem master_timeout (uuid name : String) (accuracy : α) (domain : Int16)
    (ops : List (HostOp α)) :
    (Runs.AllSteps listenStep OwnTimelineOnly (Listener.start uuid name accuracy domain) ops →
      DropsSilentMaster (Listener.start uuid name accuracy domain) ops)
    ∧ (Runs.AllSteps listenStep HeardInTime (Listener.start uuid name accuracy domain) ops →
      KeepsLiveMaster (Listener.start uuid name accuracy domain) ops) := by
  have hstarted : ∀ {pre l}, Runs.exec listenStep (Listener.start uuid name accuracy domain) pre
      = some l
      → l.coordinator.Counted :=
    fun hpre => Runs.inv_exec (fun _ _ _ => counted_step) ⟨le_refl 0, le_refl 0⟩ hpre
  refine ⟨?_, ?_⟩
  · intro hown pre seg post l l' hops hpre hseg hslave hsilent hlong hkeep
    rw [hops] at hown
    have hcounted := hstarted hpre
    have hown := (hown.after_exec hpre).of_append
    rcases silent_heartbeats hseg hslave hcounted hown hsilent hkeep with hzero | hbound
    · rw [hzero] at hlong
      exact absurd hlong (by decide)
    · have hle := hcounted.le
      omega
  · intro htime pre s mid rand view post l hops hexec hslave hof hrecent hout
    rw [hops] at htime
    have hheard := (htime.after_exec hexec).1 hslave
    have hsilence := toInt_silence_le (hstarted hexec)
    rw [Runs.exec_append] at hexec
    obtain ⟨l₁, -, hexec⟩ := Option.bind_eq_some_iff.mp hexec
    obtain ⟨l₂, harrive, hmid⟩ := Option.bind_eq_some_iff.mp hexec
    -- `l₁` is where the sample comes in, `l₂` the state it leaves
    have hmarked : MarkedSince s.name l₁.coordinator.counter.toInt l :=
      Runs.inv_exec (fun _ _ _ => markedSince_step) (markedSince_arrive l₁ s harrive) hmid
    have hcount : l.coordinator.counter.toInt = l₁.coordinator.counter.toInt + heartbeats mid := by
      rw [exec_counter hmid, listenStep_counter harrive]
      exact congrArg (· + _) (Int.add_zero _)
    rcases hheard with hheard | hsoon
    · have hmark := hmarked.marked hslave hof.2.symm hheard
      have hlate := Int32.lt_iff_toInt_lt.mp hout.2
      omega
    · exact Int32.not_lt.mpr hsoon hout.2

end Runs

/-- `b` elects `a`, hears it once more, and then nothing for four heartbeats. -/
def lostMasterOps : List (HostOp Nat) :=
  [.arrive ⟨"t", "a", 1, "", 5⟩, .heartbeat id [⟨"t", "a", 1, "", 5⟩],
    .heartbeat id [⟨"t", "a", 1, "", 5⟩], .heartbeat id [⟨"t", "a", 1, "", 5⟩],
    .arrive ⟨"t", "a", 1, "a", 5⟩, .heartbeat id [⟨"t", "a", 1, "a", 5⟩],
    .heartbeat id [⟨"t", "a", 1, "a", 5⟩], .heartbeat id [⟨"t", "a", 1, "a", 5⟩],
    .heartbeat id []]

theorem master_timeout_lostMasterOps :
    ((Runs.exec listenStep (Listener.start "t" "b" 2 5) lostMasterOps).map
        fun l => l.timeline.master) = some ""
      ∧ DropsSilentMaster (Listener.start "t" "b" 2 5) lostMasterOps
      ∧ KeepsLiveMaster (Listener.start "t" "b" 2 5) lostMasterOps := by
  have h := master_timeout "t" "b" 2 5 lostMasterOps
  exact ⟨by decide, h.1 (by decide), h.2 (by decide)⟩

/-- The host `a` stops publishing for `t`, and goes on publishing for `u`. -/
def otherTimelineOps : List (HostOp Nat) :=
  [.arrive ⟨"u", "a", 1, "a", 6⟩, .heartbeat id [⟨"u", "a", 1, "a", 6⟩],
    .arrive ⟨"u", "a", 1, "a", 6⟩, .heartbeat id [⟨"u", "a", 1, "a", 6⟩],
    .arrive ⟨"u", "a", 1, "a", 6⟩, .heartbeat id [⟨"u", "a", 1, "a", 6⟩],
    .arrive ⟨"u", "a", 1, "a", 6⟩, .heartbeat id [⟨"u", "a", 1, "a", 6⟩]]

/-- **Neither promise holds without its condition.** A slave of `a` for the timeline `t` that hears
of `a` only for `u` keeps it over four heartbeats. And a node that hears `a` before its third
heartbeat elects it there, and drops it at the fourth. -/
theorem master_timeout_fails :
    ¬ DropsSilentMaster (Listener.start "t" "b" 2 5)
        (lostMasterOps.take 5 ++ (otherTimelineOps ++ []))
      ∧ ¬ KeepsLiveMaster (Listener.start "t" "b" 2 5)
        (([.heartbeat id [], .heartbeat id []] ++ .arrive ⟨"t", "a", 1, "", 5⟩
          :: [.heartbeat id [⟨"t", "a", 1, "", 5⟩]]) ++ .heartbeat id [] :: []) := by
  refine ⟨fun h => ?_, fun h => ?_⟩
  · have hsilent : Silent ⟨⟨⟨⟨"t", "b", 2, "a", 5⟩, 3, 3⟩, [⟨"t", "a", 1, "a", 5⟩]⟩, true⟩
        otherTimelineOps := by
      intro s hs hof
      simp only [otherTimelineOps, List.mem_cons, HostOp.arrive.injEq, reduceCtorEq,
        List.not_mem_nil, or_false, false_or, or_self] at hs
      subst hs
      exact absurd hof (by decide)
    exact h _ _ _ ⟨⟨⟨⟨"t", "b", 2, "a", 5⟩, 3, 3⟩, [⟨"t", "a", 1, "a", 5⟩]⟩, true⟩
      ⟨⟨⟨⟨"t", "b", 2, "a", 5⟩, 7, 6⟩, [⟨"u", "a", 1, "a", 6⟩]⟩, true⟩ rfl (by decide) (by decide)
      (by decide) hsilent (by decide) (by decide)
  · exact h _ _ _ _ _ _ ⟨⟨⟨⟨"t", "b", 2, "a", 5⟩, 3, 0⟩, [⟨"t", "a", 1, "", 5⟩]⟩, false⟩ rfl
      (by decide) (by decide) (by decide) (by decide) (by decide)

end Qot
