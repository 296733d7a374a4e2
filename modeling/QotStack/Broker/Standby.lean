import QotStack.Broker.Leader

/-!
# QotStack — every broker leads or stands by

A broker in the election always has something to go on with: a request whose completion will call it
back, the node it owns, or a watch on the node of another. Each callback has to hand over to the
next. `masterCreateCompletion` and its like do not do so on every return code, and `runForMaster`
returns at once while the connection is down; nothing then ever calls the broker back, and it takes
no part in the election any more.

`Client.Engaged` says what keeps a broker in the election, a watch event on its way included. It is
lost in no other way (`in_election`): whatever is lost, late or out of order, a broker whose
callbacks hand over ends up as the leader, or with a watch on the node that exists.
-/

namespace Qot

/-! ## In the election -/

def Event.IsSession : Event → Prop
  | .session _ => True
  | .created _ | .got _ _ | .existed _ | .watch _ => False

instance : DecidablePred Event.IsSession
  | .created .. | .got .. | .existed .. | .watch .. | .session .. => by
    delta Event.IsSession; infer_instance

/-- Nothing of the election is on its way to the broker or from it: no request, no completion and no
watch event. -/
abbrev Client.Quiet (cl : Client) : Prop :=
  cl.outstanding = [] ∧ cl.fired = [] ∧ ∀ e ∈ cl.inbox, e.IsSession

/-- A broker that is connected, has started and waits for nothing is the leader, or watches the node
that exists. -/
abbrev InElection {ι : Type} (c : Cluster ι) : Prop :=
  ∀ i, (c.clients i).started = true → (c.clients i).live = true →
    (c.clients i).broker.connected = true → (c.clients i).Quiet →
      (c.clients i).broker.leader = true ∨ (c.clients i).watching = true ∧ c.master.isSome = true

/-- The callback neither sends a request nor takes leadership, and there is nothing else to wait
for. -/
def Event.GivesUp (connected : Bool) : Event → Prop
  | .created rc => rc = .zoperationtimeout ∨ rc = .znonode ∨ rc = .other
  | .got rc _ | .existed rc => rc = .znodeexists ∨ rc = .other ∨ rc = .znonode ∧ connected = false
  | .watch type => type = .deleted ∧ connected = false
  | .session _ => False

instance (connected : Bool) : DecidablePred (Event.GivesUp connected)
  | .created .. | .got .. | .existed .. | .watch .. | .session .. => by
    delta Event.GivesUp; infer_instance

/-- The condition on a step: the election starts while the broker is connected, and no callback
gives up. -/
def HandsOver {ι : Type} (c : Cluster ι) : ClusterOp ι → Prop
  | .start i => (c.clients i).broker.connected = true
  | .handle i k => ∀ e ∈ (c.clients i).inbox[k]?, ¬ e.GivesUp (c.clients i).broker.connected
  | .session _ _ | .serve _ _ _ | .fail _ _ _ | .late _ _ | .notify _ _ | .expire _ => True

instance {ι : Type} (c : Cluster ι) : DecidablePred (HandsOver c)
  | .start .. | .session .. | .serve .. | .fail .. | .late .. | .notify .. | .expire ..
  | .handle .. => by delta HandsOver; infer_instance

/-! ## What keeps a broker in the election -/

/-- An event whose callback goes on with the election. When a watch is set on the node there is
nothing to do. -/
def Event.Continues : Event → Prop
  | .created _ | .got _ _ => True
  | .existed rc => rc ≠ .zok
  | .watch type => type = .deleted
  | .session _ => False

/-- The broker will be called back, is the leader, or watches a node that is there. -/
inductive Client.Engaged (cl : Client) (node : Bool) : Prop
  | outstanding (h : cl.outstanding ≠ [])
  | inbox (e : Event) (he : e ∈ cl.inbox) (hcontinues : e.Continues)
  | fired (h : .deleted ∈ cl.fired)
  | leader (h : cl.broker.leader = true)
  | watching (h : cl.watching = true) (hnode : node = true)

/-- Every broker that has started, and whose session is live, is engaged. -/
def AllEngaged {ι : Type} (c : Cluster ι) : Prop :=
  ∀ i, (c.clients i).started = true → (c.clients i).live = true →
    (c.clients i).Engaged c.master.isSome

theorem AllEngaged.inElection {ι : Type} {c : Cluster ι} (h : AllEngaged c) : InElection c := by
  rintro i hstarted hlive - ⟨hout, hfired, hinbox⟩
  cases h i hstarted hlive with
  | outstanding hne => exact absurd hout hne
  | inbox e he hcontinues =>
    cases e with
    | session state => exact hcontinues.elim
    | created | got | existed | watch => exact (hinbox _ he).elim
  | fired hmem =>
    rw [hfired] at hmem
    cases hmem
  | leader hleader => exact Or.inl hleader
  | watching hwatching hnode => exact Or.inr ⟨hwatching, hnode⟩

/-! ## Callbacks -/

/-- A callback sends a request or leaves the broker leading, or it changes nothing about leadership:
then it gives up, or there was nothing to do. -/
theorem handle_cases (b : Broker) (e : Event) :
    ((b.handle e).2 ≠ none ∨ (b.handle e).1.leader = true)
      ∨ (b.handle e).1.leader = b.leader ∧ (e.Continues → e.GivesUp b.connected) := by
  have hrun {p q : Prop} (h : b.connected = false → q) :
      ((runForMaster b).2 ≠ none ∨ (runForMaster b).1.leader = true)
        ∨ (runForMaster b).1.leader = b.leader ∧ (p → q) := by
    unfold runForMaster
    split
    · exact Or.inl (Or.inl (Option.some_ne_none _))
    · next hc => exact Or.inr ⟨rfl, fun _ => h (Bool.eq_false_of_not_eq_true hc)⟩
  cases e with
  | created rc =>
    cases rc with
    | zok => exact Or.inl (Or.inr rfl)
    | zconnectionloss | znodeexists => exact Or.inl (Or.inl (Option.some_ne_none _))
    | zoperationtimeout | znonode | other => exact Or.inr ⟨rfl, by simp [Event.GivesUp]⟩
  | got rc value =>
    cases rc with
    | zok =>
      show ((if _ then _ else _ : Callback).2 ≠ none ∨ (if _ then _ else _ : Callback).1.leader
        = true) ∨ _
      split
      · exact Or.inl (Or.inr rfl)
      · exact Or.inl (Or.inl (Option.some_ne_none _))
    | zconnectionloss | zoperationtimeout => exact Or.inl (Or.inl (Option.some_ne_none _))
    | znonode => exact hrun fun h => Or.inr (Or.inr ⟨rfl, h⟩)
    | znodeexists | other => exact Or.inr ⟨rfl, by simp [Event.GivesUp]⟩
  | existed rc =>
    cases rc with
    | zok => exact Or.inr ⟨rfl, fun h => absurd rfl h⟩
    | zconnectionloss | zoperationtimeout => exact Or.inl (Or.inl (Option.some_ne_none _))
    | znonode => exact hrun fun h => Or.inr (Or.inr ⟨rfl, h⟩)
    | znodeexists | other => exact Or.inr ⟨rfl, by simp [Event.GivesUp]⟩
  | watch type =>
    cases type with
    | deleted => exact hrun fun h => ⟨rfl, h⟩
    | created => exact Or.inr ⟨rfl, fun h => by cases h⟩
  | session state => cases state <;> exact Or.inr ⟨rfl, False.elim⟩

namespace Client.Engaged

variable {cl : Client} {node : Bool}

/-- The broker, its requests and its events stay; what becomes of its watch is to be seen. -/
theorem mono {cl' : Client} {node' : Bool} (h : cl.Engaged node) (hbroker : cl'.broker = cl.broker)
    (hout : cl'.outstanding = cl.outstanding) (hinbox : cl.inbox ⊆ cl'.inbox)
    (hfired : .deleted ∈ cl.fired → cl'.Engaged node')
    (hwatching : cl.watching = true → node = true → cl'.Engaged node') : cl'.Engaged node' := by
  cases h with
  | outstanding h => exact .outstanding (hout ▸ h)
  | inbox e he hcontinues => exact .inbox e (hinbox he) hcontinues
  | fired h => exact hfired h
  | leader h => exact .leader (hbroker ▸ h)
  | watching h hnode => exact hwatching h hnode

theorem receive (h : cl.Engaged node) (e : Event) : (cl.receive e).Engaged node :=
  h.mono rfl rfl (List.subset_append_left _ _) (fun h => .fired h) fun h hnode => .watching h hnode

theorem of_receive {e : Event} (hcontinues : e.Continues) : (cl.receive e).Engaged node :=
  .inbox e (List.mem_append_right _ (List.mem_singleton.mpr rfl)) hcontinues

theorem of_run {r : Callback} (h : r.2 ≠ none ∨ r.1.leader = true) : (cl.run r).Engaged node := by
  rcases h with hsent | hleader
  · obtain ⟨q, hq⟩ := Option.ne_none_iff_exists'.mp hsent
    refine .outstanding fun hnil => ?_
    have happend : cl.outstanding ++ r.2.toList = [] := hnil
    rw [hq] at happend
    simp at happend
  · exact .leader hleader

/-- One event is handled. -/
theorem handle (h : cl.Engaged node) {k : Nat} {e : Event} (hk : cl.inbox[k]? = some e)
    (hkeeps : ¬ e.GivesUp cl.broker.connected) :
    ({ cl with inbox := cl.inbox.eraseIdx k }.run (cl.broker.handle e)).Engaged node := by
  cases h with
  | outstanding h =>
    refine .outstanding fun hnil => h ?_
    exact (List.append_eq_nil_iff.mp hnil).1
  | inbox e' he' hcontinues =>
    by_cases heq : e' = e
    · subst heq
      exact of_run ((handle_cases cl.broker e').resolve_right fun hno => hkeeps (hno.2 hcontinues))
    · obtain ⟨hlt, hget⟩ := List.getElem?_eq_some_iff.mp hk
      have hperm : (e :: cl.inbox.eraseIdx k).Perm cl.inbox :=
        hget ▸ List.getElem_cons_eraseIdx_perm hlt
      exact .inbox e' ((List.mem_cons.mp (hperm.symm.subset he')).resolve_left heq) hcontinues
  | fired h => exact .fired h
  | leader h =>
    exact of_run ((handle_cases cl.broker e).elim id fun hsame => Or.inr (hsame.1.trans h))
  | watching h hnode => exact .watching h hnode

theorem fire (h : cl.Engaged node) (type : WatchType) {node' : Bool}
    (hwatching : cl.watching = true → node = true → (cl.fire type).Engaged node') :
    (cl.fire type).Engaged node' := by
  obtain ⟨hbroker, hout, -, hinbox⟩ := fire_frame cl type
  refine h.mono hbroker hout (hinbox ▸ List.Subset.refl _) (fun hfired => .fired ?_) hwatching
  unfold Client.fire
  split
  · exact List.mem_append_left _ hfired
  · exact hfired

/-- The node is created. Nobody was engaged by a watch on it. -/
theorem fire_created (h : cl.Engaged false) : (cl.fire .created).Engaged true :=
  h.fire .created fun _ hnode => nomatch hnode

/-- The node goes, and its watches fire. -/
theorem fire_deleted (h : cl.Engaged true) : (cl.fire .deleted).Engaged false := by
  refine h.fire .deleted fun hwatching _ => .fired ?_
  rw [Client.fire, if_pos hwatching]
  exact List.mem_append_right _ (List.mem_singleton.mpr rfl)

end Client.Engaged

theorem fire_session (cl : Client) (type : WatchType) :
    (cl.fire type).started = cl.started ∧ (cl.fire type).live = cl.live := by
  unfold Client.fire
  split <;> exact ⟨rfl, rfl⟩

/-! ## The cluster -/

section Group

variable {ι : Type}

theorem allEngaged_start (serverId : ι → UInt32) : AllEngaged (Cluster.start serverId) :=
  fun _ hstarted => nomatch hstarted

theorem AllEngaged.fire_created {c : Cluster ι} (h : AllEngaged c) (hnone : c.master = none)
    (owner : ι × List Char) : AllEngaged ({ c with master := some owner }.fire .created) := by
  intro i hstarted hlive
  obtain ⟨hs, hl⟩ := fire_session (c.clients i) .created
  have hi := h i (hs ▸ hstarted) (hl ▸ hlive)
  rw [hnone] at hi
  exact hi.fire_created

variable {c : Cluster ι}

theorem AllEngaged.serve (h : AllEngaged c) (i : ι) (r : Request) : AllEngaged (c.serve i r) := by
  cases r with
  | get | awexists => exact h
  | create value =>
    cases hm : c.master with
    | none =>
      simp only [Cluster.serve, hm]
      exact h.fire_created hm (i, value)
    | some owner =>
      simp only [Cluster.serve, hm]
      exact h

/-- The answer calls the broker back, or its watch is on a node that is there. -/
theorem answer_continues (r : Request) (master : Option (ι × List Char)) :
    (r.answer master).Continues ∨ r = .awexists ∧ master.isSome = true := by
  cases r with
  | create value => exact Or.inl trivial
  | get => cases master <;> exact Or.inl trivial
  | awexists =>
    cases master with
    | none => exact Or.inl fun h => nomatch h
    | some owner => exact Or.inr ⟨rfl, rfl⟩

theorem failed_continues (r : Request) {rc : Rc} (h : rc ≠ .zok) : (r.failed rc).Continues := by
  cases r with
  | create value => trivial
  | get => trivial
  | awexists => exact h

variable [DecidableEq ι]

/-- A step of one client. -/
theorem AllEngaged.modify (h : AllEngaged c) {i : ι} {f : Client → Client}
    (hi : (f (c.clients i)).started = true → (f (c.clients i)).live = true →
      (f (c.clients i)).Engaged c.master.isSome) : AllEngaged (c.modify i f) := by
  intro j
  by_cases heq : j = i
  · subst heq
    have hself : (c.modify j f).clients j = f (c.clients j) := Function.update_self _ _ _
    rw [hself]
    exact hi
  · have hother : (c.modify i f).clients j = c.clients j := Function.update_of_ne heq _ _
    rw [hother]
    exact h j

theorem AllEngaged.expire (h : AllEngaged c) (i : ι) : AllEngaged (c.expire i) := by
  have hend : AllEngaged (c.modify i fun cl =>
      { cl with live := false, ghosts := [] }.receive (.session .expiredSession)) :=
    h.modify fun _ hlive => nomatch hlive
  unfold Cluster.expire
  split
  · next owner value hm =>
    split
    · intro j hstarted hlive
      obtain ⟨hs, hl⟩ := fire_session ((c.modify i fun cl =>
        { cl with live := false, ghosts := [] }.receive (.session .expiredSession)).clients j)
          .deleted
      have hj := hend j (hs ▸ hstarted) (hl ▸ hlive)
      have hsome : (c.modify i fun cl => { cl with live := false, ghosts := [] }.receive
          (.session .expiredSession)).master.isSome = true := congrArg Option.isSome hm
      rw [hsome] at hj
      exact hj.fire_deleted
    · exact hend
  · exact hend

/-- **One step keeps every broker in the election.** -/
theorem allEngaged_step [Fintype ι] {c' : Cluster ι} {op : ClusterOp ι} (h : AllEngaged c)
    (hguard : HandsOver c op) (hs : clusterStep c op = some c') : AllEngaged c' := by
  revert hs
  fun_cases clusterStep c op with
  | case2 i => -- start
    rintro ⟨⟩
    exact h.modify fun _ _ => .of_run (Or.inl (by simp [runForMaster, show _ = true from hguard]))
  | case3 i connected => -- session
    rintro ⟨⟩
    exact h.modify fun hstarted hlive => (h i hstarted hlive).receive _
  | case6 i k lost r => -- serve
    rintro ⟨⟩
    refine (h.serve i r).modify fun _ _ => ?_
    cases lost with
    | true => exact .of_receive (failed_continues r (by decide))
    | false =>
      rcases answer_continues r c.master with hcontinues | ⟨rfl, hnode⟩
      · exact .of_receive hcontinues
      · exact .watching (by simp [Client.receive]) hnode
  | case9 i k rc r hk hrc => -- fail
    rintro ⟨⟩
    have hne : rc ≠ .zok := fun heq => by simp [heq, Rc.IsFailure] at hrc
    exact h.modify fun _ _ => .of_receive (failed_continues r hne)
  | case12 i k r => -- late
    rintro ⟨⟩
    have hserve := h.serve i r
    refine hserve.modify fun hstarted hlive => ?_
    exact (hserve i hstarted hlive).mono rfl rfl (List.Subset.refl _) (fun h => .fired h)
      fun h hnode => .watching h hnode
  | case14 i k => -- notify
    intro hs
    obtain ⟨type, hk, ⟨⟩⟩ := Option.map_eq_some_iff.mp hs
    refine h.modify fun hstarted hlive => ?_
    have hi := h i hstarted hlive
    refine hi.mono rfl rfl (List.subset_append_left _ _) (fun hfired => ?_)
      fun h hnode => .watching h hnode
    by_cases heq : type = .deleted
    · exact .of_receive heq
    · obtain ⟨hlt, hget⟩ := List.getElem?_eq_some_iff.mp hk
      have hperm : (type :: (c.clients i).fired.eraseIdx k).Perm (c.clients i).fired :=
        hget ▸ List.getElem_cons_eraseIdx_perm hlt
      exact .fired ((List.mem_cons.mp (hperm.symm.subset hfired)).resolve_left (Ne.symm heq))
  | case15 i => -- expire
    rintro ⟨⟩
    exact h.expire i
  | case18 i k e hk => -- handle
    rintro ⟨⟩
    exact h.modify fun hstarted hlive => (h i hstarted hlive).handle hk (hguard e hk)
  -- the step is not enabled
  | _ => exact nofun

/-- **No broker drops out whose callbacks hand over.** For any number of brokers and any run of the
service: as long as no completion comes with a return code its callback gives up on, and none that
is to run for master comes while the connection is down, every broker that is connected, has started
and waits for nothing is the leader, or has a watch on the node that exists. -/
theorem in_election [Fintype ι] (serverId : ι → UInt32) (ops : List (ClusterOp ι))
    (hops : Runs.AllSteps clusterStep HandsOver (Cluster.start serverId) ops) :
    Runs.AllStates clusterStep InElection (Cluster.start serverId) ops :=
  Runs.allStates_of_inv (fun _ => AllEngaged.inElection)
    (fun _ _ _ h hguard hs => allEngaged_step h hguard hs) (allEngaged_start serverId) hops

end Group

/-- Both brokers have settled. -/
theorem in_election_standbyOps :
    Runs.AllSteps clusterStep HandsOver (Cluster.start twoIds) standbyOps
      ∧ Runs.AllStates clusterStep InElection (Cluster.start twoIds) standbyOps := by
  have hops : Runs.AllSteps clusterStep HandsOver (Cluster.start twoIds) standbyOps := by decide
  exact ⟨hops, in_election twoIds standbyOps hops⟩

/-- A broker runs for master, and its request times out. -/
def timeoutOps {ι : Type} (i : ι) : List (ClusterOp ι) :=
  [.session i true, .handle i 0, .start i, .fail i 0 .zoperationtimeout, .handle i 0]

/-- A broker is connected, but no longer when it runs for master; then it is again. -/
def interruptedOps {ι : Type} (i : ι) : List (ClusterOp ι) :=
  [.session i true, .handle i 0, .session i false, .handle i 0, .start i, .session i true,
    .handle i 0]

/-- **A broker drops out** when the creation of the node times out, and when it is to run for master
while it is disconnected. -/
theorem drops_out :
    ((Runs.exec clusterStep (Cluster.start twoIds) (timeoutOps 0)).map fun c =>
        ((c.clients 0).broker, (c.clients 0).watching)) = some (⟨10, true, false, false⟩, false)
      ∧ ¬ Runs.AllStates clusterStep InElection (Cluster.start twoIds) (timeoutOps 0)
      ∧ ((Runs.exec clusterStep (Cluster.start twoIds) (interruptedOps 0)).map fun c =>
        ((c.clients 0).broker, (c.clients 0).watching)) = some (⟨10, true, false, false⟩, false)
      ∧ ¬ Runs.AllStates clusterStep InElection (Cluster.start twoIds) (interruptedOps 0) := by
  refine ⟨by decide, by decide, by decide, by decide⟩

end Qot
