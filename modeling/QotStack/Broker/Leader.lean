import QotStack.Broker.Election

/-!
# QotStack — at most one leader

A broker becomes the leader when a completion tells it that the node is its own, and the node stays
its own until its session ends. So the node is the witness: whoever is the leader, or has a
completion on its way that will make it one, owns the node (`LeaderInv`), and one node has one
owner.

The session's end breaks this, because `main_watcher` leaves `leader` as it is: the node goes, the
next broker creates it, and there are two. `ExpiresUnclaimed` asks that only the sessions of brokers
without such a claim end; then there is at most one leader, whatever is lost, late or out of order.
-/

namespace Qot

/-- A completion that makes a broker the leader. -/
def Event.Elects (serverId : UInt32) : Event → Prop
  | .created rc => rc = .zok
  | .got rc value => rc = .zok ∧ Hex.scan value = some serverId.toNat
  | .existed _ | .watch _ | .session _ => False

instance (serverId : UInt32) : DecidablePred (Event.Elects serverId)
  | .created .. | .got .. | .existed .. | .watch .. | .session .. => by
    delta Event.Elects; infer_instance

/-- The broker is the leader, or has a completion on its way that will make it the leader. -/
abbrev Client.Claims (cl : Client) : Prop :=
  cl.broker.leader = true ∨ ∃ e ∈ cl.inbox, e.Elects cl.broker.serverId

section Group

variable {ι : Type}

/-- **At most one broker is the leader.** -/
abbrev OneLeader (c : Cluster ι) : Prop :=
  ∀ i j, (c.clients i).broker.leader = true → (c.clients j).broker.leader = true → i = j

/-- The condition on a step: a session ends only while its broker has no claim. -/
def ExpiresUnclaimed (c : Cluster ι) : ClusterOp ι → Prop
  | .expire i => ¬ (c.clients i).Claims
  | _ => True

instance (c : Cluster ι) (op : ClusterOp ι) : Decidable (ExpiresUnclaimed c op) := by
  unfold ExpiresUnclaimed; split <;> infer_instance

/-! ## The callbacks -/

/-- What a broker writes to the node, it recognises as its own and no other broker does. -/
theorem scan_serverIdString (serverId : UInt32) :
    Hex.scan (serverIdString serverId) = some serverId.toNat := by
  have hlen : (Hex.print serverId.toNat).length ≤ 8 := Hex.print_length serverId.toNat_lt
  rw [serverIdString, List.take_of_length_le hlen, Hex.scan_print]

/-- A request that writes the broker's own id, if it writes at all. -/
def Request.Of (serverId : UInt32) : Request → Prop
  | .create value => value = serverIdString serverId
  | .get | .awexists => True

/-- What a callback can do: the id stays, a request writes it, and only an event that elects the
broker makes it the leader. -/
structure CallbackSpec (b : Broker) (elects : Prop) (r : Callback) : Prop where
  serverId : r.1.serverId = b.serverId
  request : ∀ q ∈ r.2, q.Of b.serverId
  leader : r.1.leader = true → b.leader = true ∨ elects

theorem runForMaster_spec (b : Broker) (elects : Prop) :
    CallbackSpec b elects (runForMaster b) := by
  unfold runForMaster
  split
  · refine ⟨rfl, fun q hq => ?_, Or.inl⟩
    cases hq
    rfl
  · exact ⟨rfl, (fun q hq => nomatch hq), Or.inl⟩

theorem checkMaster_spec (b : Broker) (elects : Prop) : CallbackSpec b elects (checkMaster b) := by
  refine ⟨rfl, fun q hq => ?_, Or.inl⟩
  cases hq
  trivial

theorem masterExists_spec (b : Broker) (elects : Prop) :
    CallbackSpec b elects (masterExists b) := by
  refine ⟨rfl, fun q hq => ?_, fun h => nomatch h⟩
  cases hq
  trivial

variable {elects : Prop} {serverId : ι → UInt32} {c : Cluster ι} {cl : Client}

theorem takeLeadership_spec (b : Broker) (h : elects) : CallbackSpec b elects (takeLeadership b) :=
  ⟨rfl, (fun _ hq => nomatch hq), fun _ => Or.inr h⟩

theorem skip_spec (b : Broker) (elects : Prop) : CallbackSpec b elects (b, none) :=
  ⟨rfl, (fun _ hq => nomatch hq), Or.inl⟩

theorem handle_spec (b : Broker) (e : Event) :
    CallbackSpec b (e.Elects b.serverId) (b.handle e) := by
  cases e with
  | created rc =>
    cases rc with
    | zok => exact takeLeadership_spec b rfl
    | zconnectionloss => exact checkMaster_spec b _
    | znodeexists => exact masterExists_spec b _
    | zoperationtimeout | znonode | other => exact skip_spec b _
  | got rc value =>
    cases rc with
    | zok =>
      show CallbackSpec b _ (if _ then _ else _)
      split
      · next hown => exact takeLeadership_spec b ⟨rfl, hown⟩
      · exact masterExists_spec b _
    | zconnectionloss | zoperationtimeout => exact checkMaster_spec b _
    | znonode => exact runForMaster_spec b _
    | znodeexists | other => exact skip_spec b _
  | existed rc =>
    cases rc with
    | zconnectionloss | zoperationtimeout => exact masterExists_spec b _
    | znonode => exact runForMaster_spec b _
    | zok | znodeexists | other => exact skip_spec b _
  | watch type =>
    cases type with
    | deleted => exact runForMaster_spec b _
    | created => exact skip_spec b _
  | session state =>
    cases state <;> exact ⟨rfl, (fun _ hq => nomatch hq), Or.inl⟩

/-! ## The node as a witness -/

/-- The client of a broker with this id: its requests write the id. -/
structure Client.Of (serverId : UInt32) (cl : Client) : Prop where
  id : cl.broker.serverId = serverId
  outstanding : ∀ r ∈ cl.outstanding, r.Of serverId
  ghosts : ∀ r ∈ cl.ghosts, r.Of serverId

/-- Who has a claim owns the node, and the node holds the id of its owner. -/
structure LeaderInv (serverId : ι → UInt32) (c : Cluster ι) : Prop where
  clients : ∀ i, (c.clients i).Of (serverId i)
  content : ∀ i value, c.master = some (i, value) → value = serverIdString (serverId i)
  owner : ∀ i, (c.clients i).Claims → ∃ value, c.master = some (i, value)

theorem LeaderInv.oneLeader (h : LeaderInv serverId c) : OneLeader c := by
  intro i j hi hj
  obtain ⟨v, hv⟩ := h.owner i (Or.inl hi)
  obtain ⟨w, hw⟩ := h.owner j (Or.inl hj)
  rw [hv, Option.some.injEq, Prod.mk.injEq] at hw
  exact hw.1

theorem leaderInv_start (serverId : ι → UInt32) : LeaderInv serverId (Cluster.start serverId) where
  clients i := ⟨rfl, (fun _ hr => nomatch hr), (fun _ hr => nomatch hr)⟩
  content _ _ h := nomatch h
  owner i h := by
    rcases h with h | ⟨e, he, -⟩
    · cases h
    · cases he

theorem Client.Of.receive {serverId : UInt32} (h : cl.Of serverId) (e : Event) :
    (cl.receive e).Of serverId :=
  ⟨h.id, h.outstanding, h.ghosts⟩

theorem claims_receive {e : Event} (h : (cl.receive e).Claims) :
    cl.Claims ∨ e.Elects cl.broker.serverId := by
  rcases h with h | ⟨e', he', helects⟩
  · exact Or.inl (Or.inl h)
  · rcases List.mem_append.mp he' with hold | hnew
    · exact Or.inl (Or.inr ⟨e', hold, helects⟩)
    · rw [List.mem_singleton.mp hnew] at helects
      exact Or.inr helects

theorem Client.Of.run {serverId : UInt32} (h : cl.Of serverId) {r : Callback}
    (hr : CallbackSpec cl.broker elects r) : (cl.run r).Of serverId := by
  refine ⟨hr.serverId.trans h.id, fun q hq => ?_, h.ghosts⟩
  rcases List.mem_append.mp hq with hold | hnew
  · exact h.outstanding q hold
  · rw [← h.id]
    exact hr.request q (Option.mem_toList.mp hnew)

theorem claims_run {r : Callback} (hr : CallbackSpec cl.broker elects r) (h : (cl.run r).Claims) :
    cl.Claims ∨ elects := by
  rcases h with h | ⟨e, he, helects⟩
  · rcases hr.leader h with hold | helects
    · exact Or.inl (Or.inl hold)
    · exact Or.inr helects
  · exact Or.inl (Or.inr ⟨e, he, hr.serverId ▸ helects⟩)

/-- `cl'` has the broker of `cl` and holds nothing that `cl` does not. A request that failed has
become a ghost. -/
structure Client.Within (cl cl' : Client) : Prop where
  broker : cl'.broker = cl.broker
  outstanding : cl'.outstanding ⊆ cl.outstanding
  ghosts : ∀ r ∈ cl'.ghosts, r ∈ cl.ghosts ∨ r ∈ cl.outstanding
  inbox : cl'.inbox ⊆ cl.inbox

theorem Client.Within.refl (cl : Client) : cl.Within cl :=
  ⟨rfl, List.Subset.refl _, fun _ => Or.inl, List.Subset.refl _⟩

theorem Client.Of.within {serverId : UInt32} {cl' : Client} (h : cl.Of serverId)
    (hw : cl.Within cl') : cl'.Of serverId := by
  refine ⟨hw.broker ▸ h.id, fun r hr => h.outstanding r (hw.outstanding hr), fun r hr => ?_⟩
  rcases hw.ghosts r hr with hghost | hsent
  · exact h.ghosts r hghost
  · exact h.outstanding r hsent

theorem claims_within {cl' : Client} (hw : cl.Within cl') (h : cl'.Claims) : cl.Claims := by
  rcases h with h | ⟨e, he, helects⟩
  · exact Or.inl (hw.broker ▸ h)
  · exact Or.inr ⟨e, hw.inbox he, hw.broker ▸ helects⟩

/-- A watch event touches neither the broker nor its requests nor its completions. -/
theorem fire_frame (cl : Client) (type : WatchType) :
    (cl.fire type).broker = cl.broker ∧ (cl.fire type).outstanding = cl.outstanding
      ∧ (cl.fire type).ghosts = cl.ghosts ∧ (cl.fire type).inbox = cl.inbox := by
  unfold Client.fire
  split <;> exact ⟨rfl, rfl, rfl, rfl⟩

theorem LeaderInv.fire (h : LeaderInv serverId c) (type : WatchType) :
    LeaderInv serverId (c.fire type) where
  clients i := by
    obtain ⟨hb, ho, hg, -⟩ := fire_frame (c.clients i) type
    refine ⟨?_, ?_, ?_⟩
    · exact (congrArg Broker.serverId hb).trans (h.clients i).id
    · show ∀ r ∈ ((c.clients i).fire type).outstanding, _
      rw [ho]
      exact (h.clients i).outstanding
    · show ∀ r ∈ ((c.clients i).fire type).ghosts, _
      rw [hg]
      exact (h.clients i).ghosts
  content := h.content
  owner i hclaim := by
    obtain ⟨hb, -, -, hin⟩ := fire_frame (c.clients i) type
    refine h.owner i ?_
    unfold Client.Claims at hclaim ⊢
    rwa [← hb, ← hin]

/-- Serving a request: a node that is created has no claimant yet. -/
theorem LeaderInv.serve (h : LeaderInv serverId c) {i : ι} {r : Request} (hr : r.Of (serverId i)) :
    LeaderInv serverId (c.serve i r) := by
  cases r with
  | get => exact h
  | awexists => exact h
  | create value =>
    cases hm : c.master with
    | some owner =>
      simp only [Cluster.serve, hm]
      exact h
    | none =>
      simp only [Cluster.serve, hm]
      have hcreated : LeaderInv serverId { c with master := some (i, value) } := by
        refine ⟨h.clients, fun j v hv => ?_, fun j hclaim => ?_⟩
        · cases hv
          exact hr
        · obtain ⟨v, hv⟩ := h.owner j hclaim
          rw [hm] at hv
          cases hv
      exact hcreated.fire .created

/-- An answer that elects a broker says that the node is its own. -/
theorem owner_of_answer (hids : Function.Injective serverId) (h : LeaderInv serverId c) {i : ι}
    {r : Request} (helects : (r.answer c.master).Elects (serverId i)) :
    ∃ value, (c.serve i r).master = some (i, value) := by
  cases r with
  | awexists => exact helects.elim
  | create value =>
    cases hm : c.master with
    | none =>
      refine ⟨value, ?_⟩
      simp only [Cluster.serve, hm]
      rfl
    | some owner =>
      rw [hm] at helects
      cases helects
  | get =>
    cases hm : c.master with
    | none =>
      rw [hm] at helects
      cases helects.1
    | some owner =>
      obtain ⟨j, v⟩ := owner
      rw [hm] at helects
      have hscan := helects.2
      rw [h.content j v hm, scan_serverIdString, Option.some.injEq, UInt32.toNat_inj] at hscan
      cases hids hscan
      exact ⟨v, hm⟩

theorem failed_not_elects (r : Request) {serverId : UInt32} (rc : Rc) (h : rc.IsFailure) :
    ¬ (r.failed rc).Elects serverId := by
  intro helects
  have hok : rc = .zok := by
    cases r with
    | create value => exact helects
    | get => exact helects.1
    | awexists => exact helects.elim
  rw [hok] at h
  exact h

section Steps

variable [DecidableEq ι] {serverId : ι → UInt32} {c : Cluster ι} {i : ι} {f : Client → Client}
  {c' : Cluster ι}

namespace LeaderInv
variable (h : LeaderInv serverId c)
include h

/-- A step of one client. -/
theorem modify (hof : (f (c.clients i)).Of (serverId i))
    (howner : (f (c.clients i)).Claims → ∃ value, c.master = some (i, value)) :
    LeaderInv serverId (c.modify i f) where
  clients j := by
    by_cases heq : j = i
    · subst heq
      show (Function.update c.clients j _ j).Of _
      rwa [Function.update_self]
    · show (Function.update c.clients i _ j).Of _
      rw [Function.update_of_ne heq]
      exact h.clients j
  content := h.content
  owner j hclaim := by
    by_cases heq : j = i
    · subst heq
      have hself : (c.modify j f).clients j = f (c.clients j) := Function.update_self _ _ _
      rw [hself] at hclaim
      exact howner hclaim
    · have hother : (c.modify i f).clients j = c.clients j := Function.update_of_ne heq _ _
      rw [hother] at hclaim
      exact h.owner j hclaim

/-- A client gives up some of what it holds, and receives an event. -/
theorem receive {cl : Client} {e : Event}
    (hw : (c.clients i).Within cl) (hf : f (c.clients i) = cl.receive e)
    (helects : e.Elects (serverId i) → ∃ value, c.master = some (i, value)) :
    LeaderInv serverId (c.modify i f) := by
  have hof := (h.clients i).within hw
  refine h.modify (hf ▸ hof.receive e) fun hclaim => ?_
  rw [hf] at hclaim
  rcases claims_receive hclaim with hclaim | he
  · exact h.owner i (claims_within hw hclaim)
  · exact helects (hof.id ▸ he)

/-- A client gives up some of what it holds, and runs a callback. -/
theorem run {cl : Client} {elects : Prop} {r : Callback}
    (hw : (c.clients i).Within cl) (hf : f (c.clients i) = cl.run r)
    (hr : CallbackSpec cl.broker elects r) (helects : elects → (c.clients i).Claims) :
    LeaderInv serverId (c.modify i f) := by
  have hof := (h.clients i).within hw
  refine h.modify (hf ▸ hof.run hr) fun hclaim => h.owner i ?_
  rw [hf] at hclaim
  rcases claims_run hr hclaim with hclaim | he
  · exact claims_within hw hclaim
  · exact helects he

/-- The session of a broker without a claim ends. -/
theorem expire (hfree : ¬ (c.clients i).Claims) : LeaderInv serverId (c.expire i) := by
  have hw : (c.clients i).Within { c.clients i with live := false, ghosts := [] } :=
    ⟨rfl, List.Subset.refl _, (fun _ hr => nomatch hr), List.Subset.refl _⟩
  unfold Cluster.expire
  split
  · next owner value hm =>
    split
    · next heq =>
      subst heq
      -- the node is this broker's, so nobody else has a claim either
      have hgone : LeaderInv serverId { c with master := none } := by
        refine ⟨h.clients, (fun _ _ hv => nomatch hv), fun j hclaim => ?_⟩
        obtain ⟨v, hv⟩ := h.owner j hclaim
        cases hm.symm.trans hv
        exact absurd hclaim hfree
      have hend : LeaderInv serverId (Cluster.modify { c with master := none } owner fun cl =>
          { cl with live := false, ghosts := [] }.receive (.session .expiredSession)) :=
        hgone.receive hw rfl False.elim
      exact hend.fire .deleted
    · exact h.receive hw rfl False.elim
  · exact h.receive hw rfl False.elim

end LeaderInv

/-- **One step keeps the invariant.** -/
theorem leaderInv_step [Fintype ι] (hids : Function.Injective serverId) {op : ClusterOp ι}
    (h : LeaderInv serverId c) (hguard : ExpiresUnclaimed c op) (hs : clusterStep c op = some c') :
    LeaderInv serverId c' := by
  revert hs
  fun_cases clusterStep c op with
  | case2 i => -- start
    rintro ⟨⟩
    have hw : (c.clients i).Within { c.clients i with started := true } :=
      ⟨rfl, List.Subset.refl _, fun _ => Or.inl, List.Subset.refl _⟩
    exact h.run hw rfl (runForMaster_spec _ False) False.elim
  | case3 i connected => -- session
    rintro ⟨⟩
    exact h.receive (Client.Within.refl _) rfl False.elim
  | case6 i k lost r hk => -- serve
    rintro ⟨⟩
    have hr := (h.clients i).outstanding r (List.mem_of_getElem? hk)
    have hw : ((c.serve i r).clients i).Within { (c.serve i r).clients i with
        outstanding := ((c.serve i r).clients i).outstanding.eraseIdx k
        watching := ((c.serve i r).clients i).watching
          || (decide (r = Request.awexists) && !lost) } :=
      ⟨rfl, List.eraseIdx_subset, fun _ => Or.inl, List.Subset.refl _⟩
    refine (h.serve hr).receive hw rfl fun helects => ?_
    split at helects
    · exact absurd helects (failed_not_elects r _ (by decide))
    · exact owner_of_answer hids h helects
  | case9 i k rc r hk hrc => -- fail
    rintro ⟨⟩
    have hw : (c.clients i).Within { c.clients i with
        outstanding := (c.clients i).outstanding.eraseIdx k
        ghosts := (c.clients i).ghosts ++ [r] } := by
      refine ⟨rfl, List.eraseIdx_subset, fun q hq => ?_, List.Subset.refl _⟩
      rcases List.mem_append.mp hq with hq | hq
      · exact Or.inl hq
      · rw [List.mem_singleton.mp hq]
        exact Or.inr (List.mem_of_getElem? hk)
    exact h.receive hw rfl fun helects => absurd helects (failed_not_elects r _ hrc)
  | case12 i k r hk => -- late
    rintro ⟨⟩
    have hserve := h.serve ((h.clients i).ghosts r (List.mem_of_getElem? hk))
    have hw : ((c.serve i r).clients i).Within { (c.serve i r).clients i with
        ghosts := ((c.serve i r).clients i).ghosts.eraseIdx k } :=
      ⟨rfl, List.Subset.refl _, fun _ hq => Or.inl (List.eraseIdx_subset hq), List.Subset.refl _⟩
    exact hserve.modify ((hserve.clients i).within hw) fun hclaim =>
      hserve.owner i (claims_within hw hclaim)
  | case14 i k => -- notify
    intro hs
    obtain ⟨type, hk, ⟨⟩⟩ := Option.map_eq_some_iff.mp hs
    have hw : (c.clients i).Within { c.clients i with fired := (c.clients i).fired.eraseIdx k } :=
      ⟨rfl, List.Subset.refl _, fun _ => Or.inl, List.Subset.refl _⟩
    exact h.receive hw rfl False.elim
  | case15 i => -- expire
    rintro ⟨⟩
    exact h.expire hguard
  | case18 i k e hk => -- handle
    rintro ⟨⟩
    have hw : (c.clients i).Within
        { c.clients i with inbox := (c.clients i).inbox.eraseIdx k } :=
      ⟨rfl, List.Subset.refl _, fun _ => Or.inl, List.eraseIdx_subset⟩
    exact h.run hw rfl (handle_spec _ e) fun helects =>
      Or.inr ⟨e, List.mem_of_getElem? hk, helects⟩
  -- the step is not enabled
  | _ => exact nofun

end Steps

/-- **At most one leader.** For any number of brokers with distinct ids and any run of the service,
in which requests are lost and late and completions come in any order: as long as no session ends
while its broker is the leader or about to become it, at most one broker is the leader. -/
theorem one_leader [Fintype ι] [DecidableEq ι] (serverId : ι → UInt32)
    (hids : Function.Injective serverId) (ops : List (ClusterOp ι))
    (hops : Runs.AllSteps clusterStep ExpiresUnclaimed (Cluster.start serverId) ops) :
    Runs.AllStates clusterStep OneLeader (Cluster.start serverId) ops :=
  Runs.allStates_of_inv (fun _ => LeaderInv.oneLeader)
    (fun _ _ _ h hguard hs => leaderInv_step hids h hguard hs) (leaderInv_start serverId) hops

end Group

/-- Two brokers, with the ids 10 and 11. -/
def twoIds : Fin 2 → UInt32 := fun i => if i = 0 then 10 else 11

/-- Both run for master, the first one wins, and the second one watches the node. -/
def standbyOps : List (ClusterOp (Fin 2)) :=
  [.session 0 true, .handle 0 0, .session 1 true, .handle 1 0, .start 0, .start 1,
    .serve 0 0 false, .handle 0 0, .serve 1 0 false, .handle 1 0, .serve 1 0 false, .handle 1 0]

theorem one_leader_standbyOps :
    ((Runs.exec clusterStep (Cluster.start twoIds) (standbyOps ++ [.expire 1, .handle 1 0])).map
        fun c => ((c.clients 0).broker, (c.clients 1).broker))
      = some (⟨10, true, false, true⟩, ⟨11, false, true, false⟩)
    ∧ Runs.AllStates clusterStep OneLeader (Cluster.start twoIds)
      (standbyOps ++ [.expire 1, .handle 1 0]) :=
  ⟨by decide, one_leader twoIds (by decide) _ (by decide)⟩

/-- The session of the leader ends. It handles that, the second broker is notified and creates the
node. -/
def takeoverOps : List (ClusterOp (Fin 2)) :=
  standbyOps
    ++ [.expire 0, .handle 0 0, .notify 1 0, .handle 1 0, .serve 1 0 false, .handle 1 0]

/-- **A leader whose session has ended stays the leader**, next to the one that takes over. -/
theorem one_leader_fails :
    ((Runs.exec clusterStep (Cluster.start twoIds) takeoverOps).map fun c =>
        ((c.clients 0).broker, (c.clients 1).broker))
      = some (⟨10, false, true, true⟩, ⟨11, true, false, true⟩)
    ∧ ¬ Runs.AllStates clusterStep OneLeader (Cluster.start twoIds) takeoverOps := by
  refine ⟨by decide, by decide⟩

end Qot
