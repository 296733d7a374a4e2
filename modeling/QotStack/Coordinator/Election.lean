import Mathlib.Data.List.Nodup
import QotStack.Coordinator.Heartbeat

/-!
# QotStack — agreement on the master

The master of a timeline is to be the node with the least pair of accuracy and name. Each node
decides for itself, by a fold over the samples of the others; the fold starts from the node's own
accuracy, but from the *name of the master it believes in* (`TimelineType.incumbent`). That name
therefore competes at an accuracy that is not its own.

`scan_isLeast` says what a node elects, `elects_self_iff` and `elects_other_iff` when that is the
right one: a node that is the best itself must not believe in another, and a node as good as the
best one must not believe in a name before it. `coordinator_agreement_iff` puts the nodes together.
-/

namespace Qot

open RunningMin

variable {α : Type} [LinearOrder α]

/-- How a node ranks: by accuracy, then by name. -/
def TimelineType.standing (t : TimelineType α) : α ×ₗ String := toLex (t.accuracy, t.name)

/-- The samples `view` are the latest ones of all other nodes of the timeline, in any order and
among any samples of other timelines. -/
structure LatestView (nodes : List (TimelineType α)) (me : TimelineType α)
    (view : List (TimelineType α)) : Prop where
  complete : ∀ n ∈ nodes, n.name ≠ me.name →
    ∃ s ∈ view, s.uuid = me.uuid ∧ s.name = n.name ∧ s.accuracy = n.accuracy
  current : ∀ s ∈ view, s.uuid = me.uuid →
    ∃ n ∈ nodes, s.name = n.name ∧ s.accuracy = n.accuracy

/-- **What a node elects**: the least of its incumbent, at the node's own accuracy, and the other
nodes. -/
theorem scan_isLeast {nodes : List (TimelineType α)} {me : TimelineType α}
    {view : List (TimelineType α)} (h : LatestView nodes me view) (rand : Nat → Nat) :
    IsLeast { x | x = toLex (me.accuracy, me.incumbent)
        ∨ ∃ n ∈ nodes, n.name ≠ me.name ∧ x = n.standing }
      (toLex ((scan rand me view).minacc, (scan rand me view).newmaster)) := by
  have hset : { x : α ×ₗ String | x = toLex (me.accuracy, me.incumbent)
        ∨ ∃ n ∈ nodes, n.name ≠ me.name ∧ x = n.standing }
      = { x | x = toLex (me.accuracy, me.incumbent)
        ∨ x ∈ ((rivals me view).map fun s => (s.accuracy, s.name)).map toLex } := by
    ext x
    refine or_congr_right ?_
    simp only [List.map_map, List.mem_map, mem_rivals, Function.comp_apply]
    constructor
    · rintro ⟨n, hn, hne, rfl⟩
      obtain ⟨s, hs, huuid, hname, hacc⟩ := h.complete n hn hne
      refine ⟨s, ⟨hs, huuid, hname ▸ hne⟩, ?_⟩
      rw [TimelineType.standing, hname, hacc]
    · rintro ⟨s, ⟨hs, huuid, hne⟩, rfl⟩
      obtain ⟨n, hn, hname, hacc⟩ := h.current s hs huuid
      refine ⟨n, hn, hname ▸ hne, ?_⟩
      rw [TimelineType.standing, hname, hacc]
  rw [hset, scan_best]
  exact isLeast_foldl_keepLess _ _

section Leader

variable {nodes : List (TimelineType α)} {leader me : TimelineType α}
  {view : List (TimelineType α)} (hleast : ∀ n ∈ nodes, leader.standing ≤ n.standing)
  (hview : LatestView nodes me view)

include hleast hview

/-- The best node elects itself exactly when it believes in no one else. -/
theorem elects_self_iff (hself : me.name = leader.name) (hacc : me.accuracy = leader.accuracy)
    (rand : Nat → Nat) :
    (scan rand me view).newmaster = leader.name ↔ me.master = "" ∨ me.master = leader.name := by
  have hincumbent : me.incumbent = leader.name ↔ me.master = "" ∨ me.master = leader.name := by
    unfold TimelineType.incumbent
    split
    · next h => exact ⟨fun _ => Or.inl h, fun _ => hself⟩
    · next h => exact ⟨Or.inr, fun h' => h'.resolve_left h⟩
  obtain ⟨hmem, hle⟩ := scan_isLeast hview rand
  rw [← hincumbent]
  constructor
  · intro heq
    -- all other candidates have other names
    rcases hmem with hx | ⟨n, hn, hne, hx⟩
    · have hname := congrArg (fun x : α ×ₗ String => (ofLex x).2) hx
      exact (heq.symm.trans hname).symm
    · have hname := congrArg (fun x : α ×ₗ String => (ofLex x).2) hx
      have hn' : n.name = leader.name := (heq.symm.trans hname).symm
      exact absurd (hn'.trans hself.symm) hne
  · intro heq
    -- the incumbent is the leader itself, and nothing is before the leader
    have hbest : toLex ((scan rand me view).minacc, (scan rand me view).newmaster)
        = leader.standing := by
      refine le_antisymm ?_ ?_
      · refine hle (Or.inl ?_)
        rw [TimelineType.standing, hacc, heq]
      · rcases hmem with hx | ⟨n, hn, -, hx⟩
        · rw [hx, TimelineType.standing, hacc, heq]
        · rw [hx]
          exact hleast n hn
    exact congrArg (fun x : α ×ₗ String => (ofLex x).2) hbest

/-- Another node elects the best one exactly when its incumbent, at the node's own accuracy, is not
before it. -/
theorem elects_other_iff (hleader : leader ∈ nodes) (hme : me ∈ nodes)
    (hother : me.name ≠ leader.name) (rand : Nat → Nat) :
    (scan rand me view).newmaster = leader.name
      ↔ (me.accuracy = leader.accuracy → me.master = "" ∨ leader.name ≤ me.master) := by
  obtain ⟨hmem, hle⟩ := scan_isLeast hview rand
  have hmine := Prod.Lex.toLex_le_toLex.mp (hleast me hme)
  constructor
  · intro heq hacc
    by_contra hbad
    obtain ⟨hne, hnot⟩ := not_or.mp hbad
    -- a name before the leader's, tried at the leader's accuracy, is never replaced by it
    have hinc : me.incumbent = me.master := if_neg hne
    have hbefore : toLex (me.accuracy, me.incumbent) < leader.standing :=
      Prod.Lex.toLex_lt_toLex.mpr (Or.inr ⟨hacc, hinc ▸ not_le.mp hnot⟩)
    rcases hmem with hx | ⟨n, hn, -, hx⟩
    · have hname := congrArg (fun x : α ×ₗ String => (ofLex x).2) hx
      exact hnot ((heq.symm.trans hname).trans hinc).le
    · have hbelow := hle (Or.inl rfl)
      rw [hx] at hbelow
      exact absurd (hbelow.trans_lt hbefore) (not_lt.mpr (hleast n hn))
  · intro hcond
    have hbest : toLex ((scan rand me view).minacc, (scan rand me view).newmaster)
        = leader.standing := by
      refine le_antisymm (hle (Or.inr ⟨leader, hleader, hother.symm, rfl⟩)) ?_
      rcases hmem with hx | ⟨n, hn, -, hx⟩
      · rw [hx]
        refine Prod.Lex.toLex_le_toLex.mpr ?_
        rcases hmine with hlt | ⟨heq, hname⟩
        · exact Or.inl hlt
        · refine Or.inr ⟨heq, ?_⟩
          unfold TimelineType.incumbent
          split
          · exact hname
          · next hne => exact (hcond heq.symm).resolve_left hne
      · rw [hx]
        exact hleast n hn
    exact congrArg (fun x : α ×ₗ String => (ofLex x).2) hbest

end Leader

/-- A node that runs an election in its next heartbeat: its master has not timed out, and it does
not wait for one. -/
abbrev Coordinator.Ready (c : Coordinator α) : Prop := ¬ c.TimedOut ∧ ¬ c.checkTimeout.Waiting

/-- The master a ready node holds after its heartbeat. -/
theorem heartbeat_master {h : Host α} (hready : h.coordinator.Ready) (rand : Nat → Nat)
    (view : List (TimelineType α)) :
    (h.heartbeat rand view).coordinator.timeline.master
      = (scan rand h.coordinator.timeline view).newmaster := by
  show (h.coordinator.checkTimeout.elect rand view).timeline.master = _
  rw [elect_master hready.2, checkTimeout_of_not_timedOut hready.1]

/-- The nodes of one timeline, each about to run an election on the latest samples of the others. -/
structure ElectionRound (uuid : String) (hosts : List (Host α))
    (view : Host α → List (TimelineType α)) : Prop where
  timeline : ∀ h ∈ hosts, h.coordinator.timeline.uuid = uuid
  names : (hosts.map (·.coordinator.timeline.name)).Nodup
  ready : ∀ h ∈ hosts, h.coordinator.Ready
  latest : ∀ h ∈ hosts,
    LatestView (hosts.map (·.coordinator.timeline)) h.coordinator.timeline (view h)

/-- The best node believes in no one else, and no node as good as it believes in a name before
it. -/
def BeliefsHarmless (hosts : List (Host α)) (leader : TimelineType α) : Prop :=
  ∀ h ∈ hosts, h.coordinator.timeline.accuracy = leader.accuracy →
    h.coordinator.timeline.master = ""
      ∨ (if h.coordinator.timeline.name = leader.name then
          h.coordinator.timeline.master = leader.name
        else leader.name ≤ h.coordinator.timeline.master)

instance (hosts : List (Host α)) (leader : TimelineType α) :
    Decidable (BeliefsHarmless hosts leader) := by
  unfold BeliefsHarmless
  exact List.decidableBAll _ hosts

/-- **All nodes hold the best one as their master exactly when their earlier beliefs do no harm.**
For any number of nodes with distinct names, any accuracies, any earlier beliefs, any order of the
samples and any samples of other timelines among them. -/
theorem coordinator_agreement_iff (uuid : String) (hosts : List (Host α))
    (view : Host α → List (TimelineType α)) (rand : Host α → Nat → Nat)
    (hround : ElectionRound uuid hosts view) (leader : Host α) (hleader : leader ∈ hosts)
    (hleast : ∀ h ∈ hosts,
      leader.coordinator.timeline.standing ≤ h.coordinator.timeline.standing) :
    (∀ h ∈ hosts, (h.heartbeat (rand h) (view h)).coordinator.timeline.master
        = leader.coordinator.timeline.name)
      ↔ BeliefsHarmless hosts leader.coordinator.timeline := by
  have hleast' : ∀ n ∈ hosts.map (·.coordinator.timeline),
      leader.coordinator.timeline.standing ≤ n.standing := by
    intro n hn
    obtain ⟨h, hh, rfl⟩ := List.mem_map.mp hn
    exact hleast h hh
  refine forall₂_congr fun h hh => ?_
  rw [heartbeat_master (hround.ready h hh)]
  by_cases hname : h.coordinator.timeline.name = leader.coordinator.timeline.name
  · -- names are distinct, so this is the leader
    have heq : h = leader := List.inj_on_of_nodup_map hround.names hh hleader hname
    subst heq
    rw [elects_self_iff hleast' (hround.latest h hh) rfl rfl]
    simp
  · rw [elects_other_iff hleast' (hround.latest h hh) (List.mem_map_of_mem hleader)
      (List.mem_map_of_mem hh) hname]
    simp [hname]

/-! Two nodes of one timeline. `a` has the better accuracy. -/

/-- A node three heartbeats after its start, with the samples of both in its reader. -/
def twoNodeHost (name : String) (accuracy : Nat) (master : String) (lastcount : Int32) : Host Nat :=
  ⟨⟨⟨"t", name, accuracy, master, 0⟩, 2, lastcount⟩,
    [⟨"t", "b", 2, "", 7⟩, ⟨"t", "a", 1, "", 5⟩]⟩

theorem twoNode_electionRound {master : String} {lastcount : Int32}
    (hready : (twoNodeHost "a" 1 master lastcount).coordinator.Ready) :
    ElectionRound "t" [twoNodeHost "a" 1 master lastcount, twoNodeHost "b" 2 "" 0]
      Host.reader := by
  refine ⟨?_, by simp [twoNodeHost], ?_, ?_⟩
  · simp [twoNodeHost]
  · intro h hh
    rcases List.mem_pair.mp hh with rfl | rfl
    · exact hready
    · decide
  · intro h hh
    rcases List.mem_pair.mp hh with rfl | rfl <;> constructor <;> simp [twoNodeHost]

theorem coordinator_agreement_iff_fresh :
    ElectionRound "t" [twoNodeHost "a" 1 "" 0, twoNodeHost "b" 2 "" 0] Host.reader
      ∧ ∀ h ∈ [twoNodeHost "a" 1 "" 0, twoNodeHost "b" 2 "" 0],
        (h.heartbeat id h.reader).coordinator.timeline.master = "a" := by
  have hround : ElectionRound "t" [twoNodeHost "a" 1 "" 0, twoNodeHost "b" 2 "" 0] Host.reader :=
    twoNode_electionRound (by decide)
  have hleast : ∀ h ∈ [twoNodeHost "a" 1 "" 0, twoNodeHost "b" 2 "" 0],
      (twoNodeHost "a" 1 "" 0).coordinator.timeline.standing
        ≤ h.coordinator.timeline.standing := by
    intro h hh
    rcases List.mem_pair.mp hh with rfl | rfl <;> decide
  exact ⟨hround, (coordinator_agreement_iff "t" _ Host.reader (fun _ => id) hround
    (twoNodeHost "a" 1 "" 0) List.mem_cons_self hleast).mpr (by decide)⟩

/-- **A stale belief splits the timeline for good.** `a` has the best accuracy, but still believes
in `b`, whose accuracy has since been updated for the worse: it keeps `b`, while `b` elects `a`. -/
theorem coordinator_disagreement :
    ElectionRound "t" [twoNodeHost "a" 1 "b" 2, twoNodeHost "b" 2 "" 0] Host.reader
      ∧ (∀ h ∈ [twoNodeHost "a" 1 "b" 2, twoNodeHost "b" 2 "" 0],
        (twoNodeHost "a" 1 "b" 2).coordinator.timeline.standing
          ≤ h.coordinator.timeline.standing)
      ∧ ((twoNodeHost "a" 1 "b" 2).heartbeat id
          (twoNodeHost "a" 1 "b" 2).reader).coordinator.timeline.master = "b"
      ∧ ((twoNodeHost "b" 2 "" 0).heartbeat id
          (twoNodeHost "b" 2 "" 0).reader).coordinator.timeline.master = "a" := by
  refine ⟨twoNode_electionRound (by decide), ?_, by decide, by decide⟩
  intro h hh
  rcases List.mem_pair.mp hh with rfl | rfl <;> decide

end Qot
