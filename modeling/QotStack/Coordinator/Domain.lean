import Mathlib.Data.Fintype.Basic
import Mathlib.Data.List.Perm.Basic
import QotStack.Lib.Runs
import QotStack.Coordinator.Heartbeat

/-!
# QotStack — agreement on the synchronisation domain

The nodes of all timelines, whose samples travel between them in any order, and not at all if they
are lost. `worldStep` lets one node run a heartbeat, one sample arrive, or one node change its
accuracy.

A slave takes over the domain of a master when it elects it, and never again: a heartbeat that keeps
the master leaves the domain alone (`heartbeat_slave_cases`). A master, on the other hand, leaves
its domain when it meets another master there, and any node changes its domain when it elects
another master. `DomainSettled` is what then keeps a slave in its master's domain: no node publishes
a new domain while it is followed, and no node elects on a sample whose sender has published another
domain since. `domain_agreement` is the result over whole runs.
-/

namespace Qot

variable {ι α : Type}

/-- A node with what it has published last. -/
structure Station (α : Type) where
  host : Host α
  published : Option (TimelineType α)

abbrev Station.timeline (n : Station α) : TimelineType α := n.host.coordinator.timeline

inductive WorldOp (ι α : Type) where
  /-- Node `i` runs a heartbeat and reads its samples in the order `view`. -/
  | heartbeat (i : ι) (rand : Nat → Nat) (view : List (TimelineType α))
  /-- The latest sample of `src` reaches `dst`. -/
  | deliver (src dst : ι)
  | update (i : ι) (accuracy : α)

/-- One step of the nodes; `none` if it is not possible. -/
def worldStep [DecidableEq ι] [LinearOrder α] (w : ι → Station α) :
    WorldOp ι α → Option (ι → Station α)
  | .heartbeat i rand view =>
    if view.Perm (w i).host.readable then
      some (Function.update w i
        ⟨(w i).host.heartbeat rand view, some (w i).host.written⟩)
    else none
  | .deliver src dst =>
    (w src).published.map fun s =>
      Function.update w dst { w dst with host := (w dst).host.arrive s }
  | .update i accuracy =>
    some (Function.update w i { w i with host := (w i).host.update accuracy })

/-! ## Following the master's domain -/

/-- The domain in the latest sample of a node. -/
def Station.publishedDomain (n : Station α) : Option Int16 := n.published.map (·.domain)

/-- The latest sample of the node is in this reader. -/
def Station.LatestIn (n : Station α) (reader : List (TimelineType α)) : Prop :=
  ∃ s ∈ reader, n.published = some s

/-- A slave that runs this heartbeat with the latest sample of its master in its reader, and keeps
that master, is in the domain of that sample afterwards. -/
abbrev KeepsWithDomain [LinearOrder α] (w : ι → Station α) (i : ι) (rand : Nat → Nat)
    (view : List (TimelineType α)) : Prop :=
  view.Perm (w i).host.readable → (w i).host.coordinator.IsSlave →
    ∀ j, (w j).timeline.name = (w i).timeline.master → (w j).timeline.uuid = (w i).timeline.uuid →
      (w j).LatestIn (w i).host.reader →
      ((w i).host.heartbeat rand view).coordinator.timeline.master = (w i).timeline.master →
      (w j).publishedDomain = some ((w i).host.heartbeat rand view).coordinator.timeline.domain

/-- Every heartbeat of a slave follows the domain of its master. -/
def FollowsDomain [LinearOrder α] (w : ι → Station α) : WorldOp ι α → Prop
  | .heartbeat i rand view => KeepsWithDomain w i rand view
  | _ => True

/-- No other node of the timeline holds `i` as its master. -/
abbrev Unfollowed (w : ι → Station α) (i : ι) : Prop :=
  ∀ k, (w k).timeline.uuid = (w i).timeline.uuid → (w k).timeline.name ≠ (w i).timeline.name →
    (w k).timeline.master ≠ (w i).timeline.name

/-- Every sample that can win the next election of `i` carries the domain its sender has published
last. -/
abbrev RivalsCurrent [LinearOrder α] (w : ι → Station α) (i : ι) : Prop :=
  ∀ s ∈ (w i).host.reader, s.uuid = (w i).timeline.uuid → s.name ≠ (w i).timeline.name →
    s.Beats (w i).timeline →
    ∃ j, (w j).timeline.uuid = s.uuid ∧ (w j).timeline.name = s.name
      ∧ (w j).publishedDomain = some s.domain

/-- A node that publishes another domain than before is followed by no one, and elects on current
samples. -/
def DomainSettled [LinearOrder α] (w : ι → Station α) : WorldOp ι α → Prop
  | .heartbeat i _ _ =>
    ((w i).publishedDomain = none ∨ (w i).publishedDomain = some (w i).timeline.domain
        ∨ Unfollowed w i)
      ∧ RivalsCurrent w i
  | _ => True

/-- Every slave is in the domain its master has published last. -/
structure DomainInv (w : ι → Station α) : Prop where
  distinct : ∀ i j, (w i).timeline.uuid = (w j).timeline.uuid →
    (w i).timeline.name = (w j).timeline.name → i = j
  follows : ∀ i, (w i).host.coordinator.IsSlave →
    ∃ j, (w j).timeline.uuid = (w i).timeline.uuid ∧ (w j).timeline.name = (w i).timeline.master
      ∧ (w j).publishedDomain = some (w i).timeline.domain

variable {w : ι → Station α} {i : ι} {n : Station α}

/-- Replacing a node by one of the same name and timeline changes neither, anywhere. -/
theorem update_sameNode [DecidableEq ι] (hnode : n.timeline.SameNode (w i).timeline) (k : ι) :
    (Function.update w i n k).timeline.SameNode (w k).timeline := by
  by_cases hk : k = i
  · subst hk
    rwa [Function.update_self]
  · rw [Function.update_of_ne hk]
    exact ⟨rfl, rfl⟩

/-- A change of one node that keeps who it is and what it has published, and makes it no new slave,
keeps the invariant. -/
theorem domainInv_update [DecidableEq ι] (h : DomainInv w)
    (hnode : n.timeline.SameNode (w i).timeline) (hpub : n.published = (w i).published)
    (hslave : n.host.coordinator.IsSlave → n.timeline = (w i).timeline) :
    DomainInv (Function.update w i n) := by
  have huuid := fun k => (update_sameNode hnode k).1
  have hname := fun k => (update_sameNode hnode k).2
  have hdom : ∀ k, (Function.update w i n k).publishedDomain = (w k).publishedDomain := by
    intro k
    unfold Station.publishedDomain
    by_cases hk : k = i
    · subst hk
      rw [Function.update_self, hpub]
    · rw [Function.update_of_ne hk]
  refine ⟨fun k l => ?_, fun k hk => ?_⟩
  · rw [huuid, huuid, hname, hname]
    exact h.distinct k l
  · -- a node that is a slave now was one before, with the same timeline
    have htl : (Function.update w i n k).timeline = (w k).timeline := by
      by_cases hki : k = i
      · subst hki
        rw [Function.update_self] at hk ⊢
        exact hslave hk
      · rw [Function.update_of_ne hki]
    have hk' : (w k).host.coordinator.IsSlave := by
      unfold Coordinator.IsSlave at hk ⊢
      rwa [show (Function.update w i n k).host.coordinator.timeline
        = (w k).host.coordinator.timeline from htl] at hk
    obtain ⟨j, hj⟩ := h.follows k hk'
    refine ⟨j, ?_⟩
    rw [huuid, hname, hdom, htl]
    exact hj

/-- A node of this timeline and name has published this domain last. -/
def Publishes (w : ι → Station α) (uuid name : String) (domain : Int16) : Prop :=
  ∃ j, (w j).timeline.uuid = uuid ∧ (w j).timeline.name = name
    ∧ (w j).publishedDomain = some domain

/-- It still has after a change of one node, unless that node is the one and publishes another. -/
theorem publishes_update [DecidableEq ι] (hnode : n.timeline.SameNode (w i).timeline)
    {uuid name : String} {domain : Int16}
    (hsame : (w i).timeline.uuid = uuid → (w i).timeline.name = name →
      (w i).publishedDomain = some domain → n.publishedDomain = some domain)
    (h : Publishes w uuid name domain) : Publishes (Function.update w i n) uuid name domain := by
  obtain ⟨j, hju, hjn, hjd⟩ := h
  refine ⟨j, (update_sameNode hnode j).1.trans hju, (update_sameNode hnode j).2.trans hjn, ?_⟩
  by_cases hji : j = i
  · subst hji
    rw [Function.update_self]
    exact hsame hju hjn hjd
  · rwa [Function.update_of_ne hji]

/-- A slave follows what its master has published when it has just elected, on current samples, or
kept its master. -/
theorem heartbeat_follows [LinearOrder α] (h : DomainInv w) {rand : Nat → Nat}
    {view : List (TimelineType α)} (hview : view.Perm (w i).host.readable)
    (hcurrent : RivalsCurrent w i) (hslave : ((w i).host.heartbeat rand view).coordinator.IsSlave) :
    Publishes w (w i).timeline.uuid
      ((w i).host.heartbeat rand view).coordinator.timeline.master
      ((w i).host.heartbeat rand view).coordinator.timeline.domain := by
  obtain ⟨-, ⟨hbefore, hm, hd⟩ | ⟨s, hs, hbeats, -, hm, hd⟩⟩ := heartbeat_slave_cases hslave
  · rw [hm, hd]
    exact h.follows i hbefore
  · obtain ⟨hmem, hsu, hsn⟩ := mem_rivals.mp hs
    obtain ⟨j, hju, hjn, hjd⟩ :=
      hcurrent s (readable_subset _ (hview.subset hmem)) hsu hsn hbeats
    refine ⟨j, hju.trans hsu, hjn.trans hm.symm, ?_⟩
    rw [hjd, hd]

/-- **A heartbeat keeps the invariant** when it publishes nothing new to a follower and elects on
current samples. -/
theorem domainInv_heartbeat [DecidableEq ι] [LinearOrder α] (h : DomainInv w) {rand : Nat → Nat}
    {view : List (TimelineType α)} (hview : view.Perm (w i).host.readable)
    (hsettled : DomainSettled w (.heartbeat i rand view)) :
    DomainInv (Function.update w i
      ⟨(w i).host.heartbeat rand view, some (w i).host.written⟩) := by
  obtain ⟨hquiet, hcurrent⟩ := hsettled
  set n : Station α := ⟨(w i).host.heartbeat rand view, some (w i).host.written⟩ with hn
  have hnode : n.timeline.SameNode (w i).timeline := heartbeat_sameNode (w i).host rand view
  have huuid := fun k => (update_sameNode hnode k).1
  have hname := fun k => (update_sameNode hnode k).2
  have hndom : n.publishedDomain = some (w i).timeline.domain :=
    congrArg some (written_domain (w i).host)
  refine ⟨fun k l => ?_, fun k hk => ?_⟩
  · rw [huuid, huuid, hname, hname]
    exact h.distinct k l
  · by_cases hki : k = i
    · -- the node itself: it follows another one, whose publication has not changed
      subst hki
      rw [huuid]
      rw [Function.update_self] at hk ⊢
      refine publishes_update hnode (fun _ hm _ => ?_) (heartbeat_follows h hview hcurrent hk)
      exact absurd (hnode.2.trans hm) hk.1
    · -- another node: if it follows this one, the domain published is the one it had
      rw [Function.update_of_ne hki] at hk ⊢
      refine publishes_update hnode (fun hu hm hd => ?_) (h.follows k hk)
      rw [hndom]
      rcases hquiet with hnone | hsame | hfree
      · rw [hnone] at hd
        exact absurd hd (by simp)
      · rw [← hsame, hd]
      · have hne : (w k).timeline.name ≠ (w i).timeline.name := fun he => hk.1 (he.trans hm)
        exact absurd hm.symm (hfree k hu.symm hne)

/-- **One step keeps the invariant.** -/
theorem domainInv_step [DecidableEq ι] [LinearOrder α] {w' : ι → Station α} {op : WorldOp ι α}
    (h : DomainInv w) (hsettled : DomainSettled w op) (hstep : worldStep w op = some w') :
    DomainInv w' := by
  cases op with
  | heartbeat i rand view =>
    by_cases hview : view.Perm (w i).host.readable
    · simp only [worldStep, if_pos hview, Option.some.injEq] at hstep
      exact hstep ▸ domainInv_heartbeat h hview hsettled
    · simp only [worldStep, if_neg hview, reduceCtorEq] at hstep
  | deliver src dst =>
    obtain ⟨s, -, rfl⟩ := Option.map_eq_some_iff.mp hstep
    have htl := arrive_timeline (w dst).host s
    exact domainInv_update h ⟨congrArg _ htl, congrArg _ htl⟩ rfl fun _ => htl
  | update i accuracy =>
    cases hstep
    refine domainInv_update h ⟨rfl, rfl⟩ rfl fun hslave => ?_
    exact absurd rfl hslave.2

theorem followsDomain_of_inv [LinearOrder α] (h : DomainInv w) (op : WorldOp ι α) :
    FollowsDomain w op := by
  cases op with
  | heartbeat i rand view =>
    intro _ hslave j hjn hju _ hkept
    have hslave' : ((w i).host.heartbeat rand view).coordinator.IsSlave := by
      have hname := (heartbeat_sameNode (w i).host rand view).2
      unfold Coordinator.IsSlave
      rw [hname, hkept]
      exact hslave
    obtain ⟨k, hku, hkn, hkd⟩ := h.follows i hslave
    rw [h.distinct j k (hju.trans hku.symm) (hjn.trans hkn.symm), hkd]
    obtain ⟨-, ⟨-, -, hd⟩ | ⟨s, -, -, hnew, hm, -⟩⟩ := heartbeat_slave_cases hslave'
    · exact congrArg some hd.symm
    · exact absurd (hm.symm.trans hkept) hnew
  | deliver src dst => trivial
  | update i accuracy => trivial

/-- **A slave that keeps its master is in its domain** in every run in which no node publishes a new
domain while it is followed, and no node elects on a sample whose sender has published another
domain since. -/
theorem domain_agreement [DecidableEq ι] [LinearOrder α] (w : ι → Station α)
    (hdistinct : ∀ i j, (w i).timeline.uuid = (w j).timeline.uuid →
      (w i).timeline.name = (w j).timeline.name → i = j)
    (hstart : ∀ i, (w i).timeline.master = "") (ops : List (WorldOp ι α))
    (hrun : Runs.AllSteps worldStep DomainSettled w ops) :
    Runs.AllSteps worldStep FollowsDomain w ops := by
  refine Runs.allSteps_of_inv (J := DomainInv) (fun w op h _ => followsDomain_of_inv h op)
    (fun w op w' h hg hs => domainInv_step h hg hs) ?_ hrun
  exact ⟨hdistinct, fun i hslave => absurd (hstart i) hslave.2⟩

/-! ## Two runs -/

section Decidable

variable [Fintype ι] [LinearOrder α] (w : ι → Station α)

instance (n : Station α) (reader : List (TimelineType α)) : Decidable (n.LatestIn reader) :=
  List.decidableBEx _ _

instance (op : WorldOp ι α) : Decidable (FollowsDomain w op) := by
  unfold FollowsDomain; split <;> infer_instance

instance (op : WorldOp ι α) : Decidable (DomainSettled w op) := by
  unfold DomainSettled; split <;> infer_instance

end Decidable

def Station.start (uuid name : String) (accuracy : α) (domain : Int16) : Station α :=
  ⟨⟨Coordinator.start uuid name accuracy domain, []⟩, none⟩

/-- Two nodes of timeline `t`, and one of timeline `u` in the domain of the better of them. -/
def threeStations : Fin 3 → Station Nat
  | 0 => .start "t" "a" 1 5
  | 1 => .start "t" "b" 2 7
  | 2 => .start "u" "c" 1 5

/-- `b` elects `a`, then hears from it again. -/
def electionOps : List (WorldOp (Fin 3) Nat) :=
  [.heartbeat 0 id [], .deliver 0 1, .heartbeat 1 id [⟨"t", "a", 1, "", 5⟩],
    .heartbeat 1 id [⟨"t", "a", 1, "", 5⟩], .heartbeat 1 id [⟨"t", "a", 1, "", 5⟩],
    .deliver 0 1, .heartbeat 1 id [⟨"t", "a", 1, "", 5⟩]]

theorem domain_agreement_electionOps :
    Runs.AllSteps worldStep FollowsDomain threeStations electionOps :=
  domain_agreement threeStations (by decide) (by decide) electionOps (by decide)

/-- `a` and `c` elect themselves and `b` elects `a`. Then `a` meets `c` in its domain, moves to
domain 9 and says so, and `b` hears it. -/
def clashOps : List (WorldOp (Fin 3) Nat) :=
  [.heartbeat 0 id [], .heartbeat 0 id [], .heartbeat 0 id [],
    .heartbeat 2 id [], .heartbeat 2 id [], .heartbeat 2 id [], .heartbeat 2 id [],
    .deliver 0 1, .heartbeat 1 id [⟨"t", "a", 1, "", 5⟩],
    .heartbeat 1 id [⟨"t", "a", 1, "", 5⟩], .heartbeat 1 id [⟨"t", "a", 1, "", 5⟩],
    .deliver 2 0, .heartbeat 0 (fun _ => 9) [⟨"u", "c", 1, "c", 5⟩],
    .heartbeat 0 id [⟨"u", "c", 1, "c", 5⟩], .deliver 0 1]

/-- **A slave does not follow its master to a new domain.** After the run `b` has the latest sample
of its master `a` in its reader, with domain 9; its heartbeat keeps `a`, and stays in domain 5. -/
theorem domain_agreement_fails :
    (Runs.exec worldStep threeStations clashOps).map
        (fun w => ((w 0).published, (w 1).host.reader, (w 1).timeline,
          ((w 1).host.heartbeat id (w 1).host.reader).coordinator.timeline))
      = some (some ⟨"t", "a", 1, "a", 9⟩, [⟨"t", "a", 1, "a", 9⟩], ⟨"t", "b", 2, "a", 5⟩,
        ⟨"t", "b", 2, "a", 5⟩)
      ∧ ¬ Runs.AllSteps worldStep FollowsDomain threeStations
        (clashOps ++ [.heartbeat 1 id [⟨"t", "a", 1, "a", 9⟩]]) := by
  refine ⟨by decide, by decide⟩

end Qot
