import QotStack.Lib.Runs
import QotStack.Binding.Table

/-!
# QotStack — the tightest demand of a timeline

The scheduler of synchronisation asks a timeline for the tightest demand over its bindings, and
gets the first entry of three lists (`timelineGetBindingInfo`). That is the tightest demand as long
as every list holds exactly the bindings that exist, ordered by the component read from its head:
`Ranked`.

Leaving always keeps that order. Joining and updating link a binding before the first entry whose
key *differs*, larger or smaller, and two of the lists are keyed by one accuracy and read for the
other; so the order survives exactly when the new demand happens to fit where it is linked
(`KeepsOrder`, `pairwise_insertBefore_iff`).
-/

namespace Qot

open OrderedInsert

/-- `v` is the least `comp` over the bindings. -/
abbrev IsTightest (comp : Timequality → Timelength) (root : List BindingImpl) (v : Timelength) :
    Prop :=
  (∃ b ∈ root, comp b.info.demand = v) ∧ ∀ b ∈ root, v.value ≤ (comp b.info.demand).value

/-- With at least one binding, the information returned is the tightest demand, component by
component, over exactly the bindings that exist. -/
def TightestDemand (tl : BindingTable) : Prop :=
  tl.root ≠ [] →
    match timelineGetBindingInfo tl with
    | none => False
    | some d =>
      IsTightest (·.resolution) tl.root d.resolution
        ∧ IsTightest (·.accuracy.below) tl.root d.accuracy.below
        ∧ IsTightest (·.accuracy.above) tl.root d.accuracy.above

instance (tl : BindingTable) : Decidable (TightestDemand tl) := by
  unfold TightestDemand
  cases timelineGetBindingInfo tl <;> infer_instance

/-! ## Ranked lists -/

/-- The list holds exactly the bindings of the tree, in the order of the component `comp`. -/
structure Ranked (comp : Timequality → Timelength) (root : List BindingImpl) (head : List Int32) :
    Prop where
  perm : head.Perm (pids root)
  sorted : head.Pairwise fun p q => (comp (demandOf root p)).value ≤ (comp (demandOf root q)).value

variable {comp : Timequality → Timelength} {root : List BindingImpl} {pid : Int32}
  {tl : BindingTable}

theorem Ranked.isTightest {p : Int32} {head : List Int32} (hnodup : (pids root).Nodup)
    (h : Ranked comp root (p :: head)) : IsTightest comp root (comp (demandOf root p)) := by
  obtain ⟨hfirst, -⟩ := List.pairwise_cons.mp h.sorted
  constructor
  · have hp : p ∈ pids root := h.perm.subset List.mem_cons_self
    obtain ⟨b, hb, rfl⟩ := List.mem_map.mp hp
    exact ⟨b, hb, by rw [demandOf_of_mem hnodup hb]⟩
  · intro b hb
    rw [← demandOf_of_mem hnodup hb]
    have hmem : b.pid ∈ p :: head := h.perm.mem_iff.mpr (List.mem_map_of_mem hb)
    rcases List.mem_cons.mp hmem with heq | htail
    · rw [heq]
    · exact hfirst b.pid htail

theorem Ranked.erase {head : List Int32} (hnodup : (pids root).Nodup) (h : Ranked comp root head)
    (pid : Int32) : Ranked comp (root.filter fun b => b.pid ≠ pid) (head.erase pid) := by
  have hhead : head.Nodup := h.perm.nodup_iff.mpr hnodup
  constructor
  · have hsame : (fun q : Int32 => decide (q ≠ pid)) = fun q => q != pid := by
      funext q
      by_cases hq : q = pid <;> simp [hq]
    rw [pids_filter, hhead.erase_eq_filter, hsame]
    exact h.perm.filter _
  · -- the demands of the entries that stay are untouched
    refine List.Pairwise.imp_of_mem ?_ (h.sorted.sublist List.erase_sublist)
    intro p q hp hq hpq
    have hp' : p ≠ pid := fun he => hhead.not_mem_erase (he ▸ hp)
    have hq' : q ≠ pid := fun he => hhead.not_mem_erase (he ▸ hq)
    rwa [demandOf_filter hp', demandOf_filter hq']

/-- The demand fits where `insertList` links it: the entries walked past, whose key is the same,
are at least as tight, and those behind are at most as tight. -/
def KeepsOrder (key comp : Timequality → Timelength) (root : List BindingImpl)
    (demand : Timequality) (head : List Int32) : Prop :=
  (∀ q ∈ head.takeWhile fun q => key (demandOf root q) = key demand,
      (comp (demandOf root q)).value ≤ (comp demand).value)
    ∧ ∀ q ∈ head.dropWhile fun q => key (demandOf root q) = key demand,
      (comp demand).value ≤ (comp (demandOf root q)).value

instance (key comp : Timequality → Timelength) (root : List BindingImpl) (demand : Timequality)
    (head : List Int32) : Decidable (KeepsOrder key comp root demand head) :=
  -- over the entries of the list, not over all process ids
  @instDecidableAnd _ _ (List.decidableBAll _ _) (List.decidableBAll _ _)

/-- Linking a binding whose demand fits keeps the order. `root` is the tree before, in which `rest`
is ranked apart from the binding itself; `root'` the tree after. -/
theorem Ranked.insert {key : Timequality → Timelength} {root' : List BindingImpl}
    {rest : List Int32} {demand : Timequality} (hsorted : rest.Pairwise fun p q =>
      (comp (demandOf root p)).value ≤ (comp (demandOf root q)).value)
    (hperm : (pid :: rest).Perm (pids root')) (hself : demandOf root' pid = demand)
    (hothers : ∀ q ∈ rest, demandOf root' q = demandOf root q)
    (hkeeps : KeepsOrder key comp root demand rest) :
    Ranked comp root' (insertList key root' pid rest) := by
  constructor
  · exact (insertBefore_perm _ pid rest).trans hperm
  · -- the walk stops at the first differing key, in the tree before as in the tree after
    have hwalk : insertList key root' pid rest
        = insertBefore (fun q => !decide (key (demandOf root q) = key demand)) pid rest := by
      apply insertBefore_congr
      intro q hq
      rw [hothers q hq, hself]
      simp [timelengthCmp_eq_zero]
    rw [hwalk, pairwise_insertBefore_iff]
    simp only [Bool.not_not]
    refine ⟨?_, ?_, ?_⟩
    · refine List.Pairwise.imp_of_mem ?_ hsorted
      intro p q hp hq hpq
      rwa [hothers p hp, hothers q hq]
    · intro q hq
      rw [hself, hothers q (List.takeWhile_subset _ hq)]
      exact hkeeps.1 q hq
    · intro q hq
      rw [hself, hothers q (List.dropWhile_subset _ hq)]
      exact hkeeps.2 q hq

/-! ## Runs of the binding calls -/

inductive BindOp where
  | join (pid : Int32) (msgb : Option QotBinding) (alloc : Bool)
  | update (pid : Int32) (msgb : Option QotBinding)
  | leave (pid : Int32) (copied : Bool)
  deriving DecidableEq, Repr

/-- A call that returns an error leaves the table as it was. -/
def bindStep (tl : BindingTable) (op : BindOp) : Option BindingTable :=
  some <|
    match op with
    | .join pid msgb alloc => (timelineBindJoin tl pid msgb alloc).getD tl
    | .update pid msgb => (timelineBindUpdate tl pid msgb).getD tl
    | .leave pid copied => (timelineBindLeave tl pid copied).getD tl

/-- A demand fits all three lists, the caller's own entry taken off. -/
structure DemandFits (tl : BindingTable) (pid : Int32) (demand : Timequality) : Prop where
  res : KeepsOrder (·.resolution) (·.resolution) tl.root demand (tl.headRes.erase pid)
  low : KeepsOrder (·.accuracy.above) (·.accuracy.below) tl.root demand (tl.headLow.erase pid)
  upp : KeepsOrder (·.accuracy.below) (·.accuracy.above) tl.root demand (tl.headUpp.erase pid)

/-- The condition on a call: a demand that is going to be linked fits. -/
def BindFits (tl : BindingTable) : BindOp → Prop
  | .join pid (some info) _ => pid ∉ pids tl.root → DemandFits tl pid info.demand
  | .update pid (some info) => pid ∈ pids tl.root → DemandFits tl pid info.demand
  | _ => True

/-- One binding per process, and three ranked lists. -/
structure DemandInv (tl : BindingTable) : Prop where
  nodup : (pids tl.root).Nodup
  res : Ranked (·.resolution) tl.root tl.headRes
  low : Ranked (·.accuracy.below) tl.root tl.headLow
  upp : Ranked (·.accuracy.above) tl.root tl.headUpp

section
variable (h : DemandInv tl)
include h

theorem DemandInv.tightestDemand : TightestDemand tl := by
  intro hne
  obtain ⟨root, headRes, headLow, headUpp⟩ := tl
  obtain ⟨hnodup, hres, hlow, hupp⟩ := h
  simp only at hne hnodup hres hlow hupp
  -- a list that holds every binding is not empty
  have hcons : ∀ {comp : Timequality → Timelength} {head : List Int32}, Ranked comp root head →
      ∃ p tail, head = p :: tail := by
    intro comp head hr
    refine List.exists_cons_of_ne_nil fun hnil => hne ?_
    have hempty : pids root = [] := List.nil_perm.mp (hnil ▸ hr.perm)
    exact List.map_eq_nil_iff.mp hempty
  obtain ⟨p, _, rfl⟩ := hcons hres
  obtain ⟨q, _, rfl⟩ := hcons hlow
  obtain ⟨r, _, rfl⟩ := hcons hupp
  exact ⟨hres.isTightest hnodup, hlow.isTightest hnodup, hupp.isTightest hnodup⟩

/-- A demand that fits is linked into all three lists. The tree after holds the same processes
besides `pid`, with the same demands. -/
theorem DemandInv.link {root' : List BindingImpl} {demand : Timequality}
    (hfits : DemandFits tl pid demand) (hnodup : (pids root').Nodup)
    (hperm : (pid :: (pids tl.root).erase pid).Perm (pids root'))
    (hself : demandOf root' pid = demand)
    (hothers : ∀ q, q ≠ pid → demandOf root' q = demandOf tl.root q) :
    DemandInv ({ tl with root := root' }.unlink pid |>.link pid) := by
  have hinsert : ∀ {key comp : Timequality → Timelength} {head : List Int32},
      Ranked comp tl.root head → KeepsOrder key comp tl.root demand (head.erase pid) →
        Ranked comp root' (insertList key root' pid (head.erase pid)) := by
    intro key comp head hr hk
    have hhead : head.Nodup := hr.perm.nodup_iff.mpr h.nodup
    refine Ranked.insert (hr.sorted.sublist List.erase_sublist) ?_ hself ?_ hk
    · exact ((hr.perm.erase pid).cons pid).trans hperm
    · intro q hq
      exact hothers q fun he => hhead.not_mem_erase (he ▸ hq)
  exact ⟨hnodup, hinsert h.res hfits.res, hinsert h.low hfits.low, hinsert h.upp hfits.upp⟩

theorem DemandInv.join {tl' : BindingTable} {info : QotBinding} {alloc : Bool}
    (hfits : pid ∉ pids tl.root → DemandFits tl pid info.demand)
    (hadd : qotBindingAdd tl pid info alloc = some tl') : DemandInv tl' := by
  cases alloc with
  | false => simp [qotBindingAdd] at hadd
  | true =>
    simp only [qotBindingAdd, if_true, Option.map_eq_some_iff] at hadd
    obtain ⟨root', hins, rfl⟩ := hadd
    obtain ⟨hfresh, hroot'⟩ := insertBinding_cases hins
    simp only at hfresh
    have hperm := pids_insertBefore_perm (fun this => pid < this.pid)
      ⟨{ info with id := pid }, pid, none⟩ tl.root
    rw [← hroot'] at hperm
    have hnodup : (pids root').Nodup :=
      hperm.nodup_iff.mpr (List.nodup_cons.mpr ⟨hfresh, h.nodup⟩)
    -- a process without a binding is on no list: unlinking it first changes nothing
    have hlists : ∀ {comp : Timequality → Timelength} {head : List Int32},
        Ranked comp tl.root head → head.erase pid = head := fun hr =>
      List.erase_of_not_mem fun hm => hfresh (hr.perm.subset hm)
    have hunlink : { tl with root := root' }.unlink pid = { tl with root := root' } := by
      simp [BindingTable.unlink, hlists h.res, hlists h.low, hlists h.upp]
    have hself : demandOf root' pid = info.demand := by
      have hmem : (⟨{ info with id := pid }, pid, none⟩ : BindingImpl) ∈ root' := by
        rw [hroot']
        simp
      exact demandOf_of_mem hnodup hmem
    have hothers : ∀ q, q ≠ pid → demandOf root' q = demandOf tl.root q := by
      intro q hq
      rw [hroot']
      exact demandOf_insertBefore hq tl.root
    rw [← hunlink]
    refine h.link (hfits hfresh) hnodup ?_ hself hothers
    rw [List.erase_of_not_mem hfresh]
    exact hperm.symm

theorem DemandInv.update {info : QotBinding} {b : BindingImpl}
    (hfind : findBinding tl.root pid = some b)
    (hfits : pid ∈ pids tl.root → DemandFits tl pid info.demand) :
    DemandInv ({ tl with root := modifyBinding tl.root pid fun b => { b with info := info } }.unlink
      pid |>.link pid) := by
  have hbound : pid ∈ pids tl.root := by
    by_contra hno
    simp [findBinding_eq_none.mpr hno] at hfind
  have hpids : pids (modifyBinding tl.root pid fun b => { b with info := info }) = pids tl.root :=
    pids_modifyBinding fun _ => rfl
  have hb : b.pid = pid := by simpa using List.find?_some hfind
  have hself : demandOf (modifyBinding tl.root pid fun b => { b with info := info }) pid
      = info.demand := by
    simp [demandOf, findBinding_modifyBinding (f := fun b => { b with info := info }) fun _ => rfl,
      hfind, hb]
  refine h.link (hfits hbound) (hpids ▸ h.nodup) ?_ hself fun q hq =>
    demandOf_modifyBinding (fun _ => rfl) hq
  rw [hpids]
  exact (List.perm_cons_erase hbound).symm

theorem DemandInv.leave (pid : Int32) : DemandInv (qotBindingDel tl pid) := by
  refine ⟨?_, h.res.erase h.nodup pid, h.low.erase h.nodup pid, h.upp.erase h.nodup pid⟩
  show (pids (tl.root.filter fun b => b.pid ≠ pid)).Nodup
  rw [pids_filter]
  exact h.nodup.filter _

/-- **One call.** A call that meets the condition keeps the lists ranked. -/
theorem demandInv_step {tl' : BindingTable} {op : BindOp}
    (hfits : BindFits tl op) (hstep : bindStep tl op = some tl') : DemandInv tl' := by
  cases hstep
  cases op with
  | join pid msgb alloc =>
    cases msgb with
    | none => exact h
    | some info =>
      simp only [timelineBindJoin, Option.bind_some]
      cases hadd : qotBindingAdd tl pid info alloc with
      | none => exact h
      | some tl' => exact h.join hfits hadd
  | update pid msgb =>
    cases msgb with
    | none => exact h
    | some info =>
      simp only [timelineBindUpdate, Option.bind_some]
      cases hfind : findBinding tl.root pid with
      | none => exact h
      | some b => exact h.update hfind hfits
  | leave pid copied =>
    cases copied with
    | false => exact h
    | true =>
      simp only [timelineBindLeave, if_true]
      cases hfind : findBinding tl.root pid with
      | none => exact h
      | some b => exact h.leave pid

end

theorem demandInv_empty : DemandInv BindingTable.empty :=
  ⟨List.nodup_nil, ⟨List.Perm.nil, List.Pairwise.nil⟩, ⟨List.Perm.nil, List.Pairwise.nil⟩,
    ⟨List.Perm.nil, List.Pairwise.nil⟩⟩

/-- **The tightest demand.** In every run of binding calls, by any processes with any demands, in
which every demand linked fits the lists it is linked into, the information a timeline returns is
the tightest demand in every state. -/
theorem bindings_tightest_demand (ops : List BindOp)
    (hfits : Runs.AllSteps bindStep BindFits BindingTable.empty ops) :
    Runs.AllStates bindStep TightestDemand BindingTable.empty ops :=
  Runs.allStates_of_inv (fun _ h => h.tightestDemand) (fun _ _ _ h => demandInv_step h)
    demandInv_empty hfits

def secondsBinding (n : UInt64) : QotBinding := ⟨⟨⟨n, 0⟩, ⟨⟨n, 0⟩, ⟨n, 0⟩⟩⟩, 0⟩

def tighteningOps : List BindOp :=
  [.join 1 (some (secondsBinding 2)) true, .join 2 (some (secondsBinding 1)) true,
    .update 2 (some (secondsBinding 1)), .leave 2 true]

theorem bindings_tightest_demand_tightening :
    Runs.AllStates bindStep TightestDemand BindingTable.empty tighteningOps := by
  apply bindings_tightest_demand
  simp only [tighteningOps, Runs.AllSteps, bindStep, Option.some.injEq, forall_eq', BindFits]
  exact ⟨fun _ => ⟨by decide, by decide, by decide⟩, fun _ => ⟨by decide, by decide, by decide⟩,
    fun _ => ⟨by decide, by decide, by decide⟩, trivial, trivial⟩

def looseningOps : List BindOp :=
  [.join 1 (some (secondsBinding 1)) true, .join 2 (some (secondsBinding 2)) true]

/-- **The information returned is not the tightest demand.** A second, looser demand is linked in
front of the first, since their keys differ, and is the one returned. -/
theorem bindings_not_tightest_demand :
    ¬ Runs.AllStates bindStep TightestDemand BindingTable.empty looseningOps := by
  intro h
  exact absurd (h.exec rfl) (by decide)

end Qot
