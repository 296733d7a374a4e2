import QotStack.Lib.Loop
import QotStack.User.Notify

/-!
# QotStack — the loops that notify connections

Both devices tell every connection of something new, the user's of a timeline
(`qot_user_timeline_create_notify`) and the administrator's of a clock
(`qot_admin_clock_register_notify`). The two loops over the tree of connections are the same:
allocate an event, fill it in, queue it, go on to the next connection.

When there is no memory for an event, both `continue` before they have gone on. So the connection is
tried again, and as long as there is no memory the loop does not end. The administrator's also
returns when a signal interrupts it while it waits for the queue: the event is lost, and those
behind are not reached. `notification_loops_iff` says that apart from this both loops do what they
should.
-/

namespace Qot

open SearchTree

/-! ## The loops -/

/-- The connections at their addresses, those that the loop has still to go to, those that it has
tried to allocate an event for, in order, and the result it has got so far. -/
structure NotifyState where
  heap : Nat → Con
  left : List Nat
  tried : List Nat
  result : Int

/-- What happens during the loop: whether the `k`-th allocation succeeds, and whether a signal
interrupts the wait for the queue after it. -/
structure NotifyEnv where
  kzalloc : Nat → Bool
  signal : Nat → Bool

/-- One iteration, where the `k`-th one would queue `event k`. -/
def notifyStep (event : Nat → QotEvent) (env : NotifyEnv) (s : NotifyState) : Option NotifyState :=
  match s.left with
  | [] => none
  | con :: rest =>
    let k := s.tried.length
    let s := { s with tried := s.tried ++ [con] }
    -- `continue`, with the connection as it is
    if env.kzalloc k = false then some s
    else if env.signal k then some { s with left := [], result := -erestartsys }
    else some { s with
      heap := Function.update s.heap con ((s.heap con).deliver (event k))
      left := rest }

/-- The connections of a device in the order of the tree. -/
def Chdev.connections {slab : FileSlab} (dev : Chdev slab) : List Nat :=
  (inorder dev.root).map (·.addr)

def Chdev.notifyStart {slab : FileSlab} (dev : Chdev slab) : NotifyState :=
  ⟨dev.heap, dev.connections, [], 0⟩

/-- The event of a timeline, for which the core time is read each time. -/
def timelineCreateEvent (timeline : QotTimeline) (timestamp : Nat → Utimepoint) (k : Nat) :
    QotEvent :=
  ⟨.qotEventTimelineCreate, timestamp k, timeline.name⟩

/-- The event of a clock, which has no time. -/
def clockCreateEvent (clk : CName) (_ : Nat) : QotEvent :=
  ⟨.qotEventClockCreate, Utimepoint.zero, clk⟩

/-- The iterations of `qot_user_timeline_create_notify`, which takes a spin lock. -/
def qotUserTimelineCreateNotify (timeline : QotTimeline) (timestamp : Nat → Utimepoint)
    (kzalloc : Nat → Bool) : NotifyState → Option NotifyState :=
  notifyStep (timelineCreateEvent timeline timestamp) ⟨kzalloc, fun _ => false⟩

/-- The iterations of `qot_admin_clock_register_notify`. -/
def qotAdminClockRegisterNotify (clk : CName) (env : NotifyEnv) :
    NotifyState → Option NotifyState :=
  notifyStep (clockCreateEvent clk) env

/-! ## What is asked -/

/-- The loop ends, having tried no connection twice, with one event more at each connection for
which there was memory, and the others as they were. -/
def ReachesEveryone (step : NotifyState → Option NotifyState) (event : Nat → QotEvent)
    (kzalloc : Nat → Bool) (start : NotifyState) : Prop :=
  ∃ e, Loop.EndsIn step start e ∧ e.tried.Nodup
    ∧ ∀ con, (∃ k, e.tried[k]? = some con ∧ kzalloc k = true
          ∧ e.heap con = (start.heap con).deliver (event k))
        ∨ (∀ k, e.tried[k]? = some con → kzalloc k = false) ∧ e.heap con = start.heap con

/-! ## While nothing goes wrong -/

section Run

variable {event : Nat → QotEvent} {env : NotifyEnv} {heap : Nat → Con} {cons : List Nat}

/-- Nothing goes wrong in the `k`-th iteration. -/
def NotifyEnv.Smooth (env : NotifyEnv) (k : Nat) : Prop :=
  env.kzalloc k = true ∧ env.signal k = false

/-- The state after `k` iterations in which nothing goes wrong. -/
def notified (event : Nat → QotEvent) (heap : Nat → Con) (cons : List Nat) (k : Nat) :
    NotifyState where
  heap con := if con ∈ cons.take k then (heap con).deliver (event (cons.idxOf con)) else heap con
  left := cons.drop k
  tried := cons.take k
  result := 0

variable {k : Nat}

theorem not_mem_take (hnodup : cons.Nodup) (hk : k < cons.length) : cons[k] ∉ cons.take k := by
  intro hmem
  obtain ⟨j, hj, hjk⟩ := List.mem_take_iff_getElem.mp hmem
  have := (hnodup.getElem_inj_iff).mp hjk
  omega

/-- The iteration at a state, in which the connection is `cons[k]`. -/
theorem notifyStep_notified (hk : k < cons.length) :
    notifyStep event env (notified event heap cons k)
      = if env.kzalloc k = false then
          some { notified event heap cons k with tried := cons.take (k + 1) }
        else if env.signal k then
          some { notified event heap cons k with
            left := [], tried := cons.take (k + 1), result := -erestartsys }
        else some { notified event heap cons k with
          heap := Function.update (notified event heap cons k).heap cons[k]
            (((notified event heap cons k).heap cons[k]).deliver (event k))
          left := cons.drop (k + 1)
          tried := cons.take (k + 1) } := by
  have hleft : (notified event heap cons k).left = cons[k] :: cons.drop (k + 1) :=
    List.drop_eq_getElem_cons hk
  have hlength : (notified event heap cons k).tried.length = k :=
    List.length_take_of_le (le_of_lt hk)
  have htried : (notified event heap cons k).tried ++ [cons[k]] = cons.take (k + 1) :=
    List.take_concat_get' cons k hk
  simp only [notifyStep, hleft, hlength, htried]

theorem notifyStep_smooth (hnodup : cons.Nodup) (hk : k < cons.length) (h : env.Smooth k) :
    notifyStep event env (notified event heap cons k)
      = some (notified event heap cons (k + 1)) := by
  have hfresh := not_mem_take hnodup hk
  have hheap : Function.update (notified event heap cons k).heap cons[k]
      (((notified event heap cons k).heap cons[k]).deliver (event k))
        = (notified event heap cons (k + 1)).heap := by
    funext con
    simp only [notified, ← List.take_concat_get' cons k hk, List.mem_append, List.mem_singleton]
    by_cases hcon : con = cons[k]
    · subst hcon
      simp [hfresh, hnodup.idxOf_getElem]
    · simp [hcon]
  rw [notifyStep_notified hk, h.1, h.2, hheap]
  rfl

theorem reaches_notified (hnodup : cons.Nodup) (hk : k ≤ cons.length) (h : ∀ j < k, env.Smooth j) :
    Loop.Reaches (notifyStep event env) ⟨heap, cons, [], 0⟩ (notified event heap cons k) := by
  induction k with
  | zero =>
    have hstart : notified event heap cons 0 = ⟨heap, cons, [], 0⟩ := by simp [notified]
    rw [hstart]
    exact Loop.Reaches.refl _
  | succ k ih =>
    have hreach := ih (by omega) fun j hj => h j (by omega)
    exact Relation.ReflTransGen.tail hreach (notifyStep_smooth hnodup hk (h k (by omega)))

/-! ## The first thing that goes wrong -/

/-- Every iteration tries the connection it is at. -/
theorem notifyStep_cons {s : NotifyState} {con : Nat} {rest : List Nat} (h : s.left = con :: rest) :
    ∃ s', notifyStep event env s = some s' ∧ s'.tried = s.tried ++ [con] := by
  simp only [notifyStep, h]
  split
  · exact ⟨_, rfl, rfl⟩
  · split
    · exact ⟨_, rfl, rfl⟩
    · exact ⟨_, rfl, rfl⟩

theorem tried_prefix_of_reaches {s e : NotifyState} (h : Loop.Reaches (notifyStep event env) s e) :
    s.tried <+: e.tried := by
  refine Loop.reaches_induction (I := fun e => s.tried <+: e.tried) (List.prefix_refl _) ?_ h
  intro a b ha hab
  cases hleft : a.left with
  | nil => simp [notifyStep, hleft] at hab
  | cons con rest =>
    obtain ⟨b', hb', htried⟩ := @notifyStep_cons event env a con rest hleft
    rw [hab] at hb'
    cases hb'
    rw [htried]
    exact ha.trans (List.prefix_append _ _)

/-- Without memory for an event its connection is tried again. -/
theorem not_reachesEveryone_of_failed (hnodup : cons.Nodup) (hk : k < cons.length)
    (hbefore : ∀ j < k, env.Smooth j) (hfailed : env.kzalloc k = false) :
    ¬ ReachesEveryone (notifyStep event env) event env.kzalloc ⟨heap, cons, [], 0⟩ := by
  rintro ⟨e, hend, htried, -⟩
  have hagain : notifyStep event env (notified event heap cons k)
      = some { notified event heap cons k with tried := cons.take (k + 1) } := by
    rw [notifyStep_notified hk, if_pos hfailed]
  rw [(reaches_notified hnodup (le_of_lt hk) hbefore).endsIn_iff,
    Loop.endsIn_step_iff hagain] at hend
  obtain ⟨s, hs, hstried⟩ := @notifyStep_cons event env
    { notified event heap cons k with tried := cons.take (k + 1) } _ _
      (List.drop_eq_getElem_cons hk)
  rw [Loop.endsIn_step_iff hs] at hend
  -- the connection is in what has been tried, and is added once more
  have hnodup' : (cons.take (k + 1) ++ [cons[k]]).Nodup := by
    rw [← hstried]
    exact htried.sublist (tried_prefix_of_reaches hend.1).sublist
  have hmem : cons[k] ∈ cons.take (k + 1) := by
    rw [← List.take_concat_get' cons k hk]
    exact List.mem_append_right _ (List.mem_singleton.mpr rfl)
  exact List.disjoint_of_nodup_append hnodup' hmem (List.mem_singleton.mpr rfl)

theorem deliver_ne (con : Con) (event : QotEvent) : con ≠ con.deliver event := by
  intro h
  have hlength := congrArg (fun c => c.eventList.length) h
  simp [Con.deliver, Con.listAddTail] at hlength

/-- An interrupted loop has lost the event that it had allocated. -/
theorem not_reachesEveryone_of_signal (hnodup : cons.Nodup) (hk : k < cons.length)
    (hbefore : ∀ j < k, env.Smooth j) (hkzalloc : env.kzalloc k = true)
    (hsignal : env.signal k = true) :
    ¬ ReachesEveryone (notifyStep event env) event env.kzalloc ⟨heap, cons, [], 0⟩ := by
  rintro ⟨e, hend, -, hevents⟩
  have hreturn : notifyStep event env (notified event heap cons k)
      = some { notified event heap cons k with
          left := [], tried := cons.take (k + 1), result := -erestartsys } := by
    rw [notifyStep_notified hk, if_neg (by simp [hkzalloc]), if_pos hsignal]
  rw [(reaches_notified hnodup (le_of_lt hk) hbefore).endsIn_iff, Loop.endsIn_step_iff hreturn,
    Loop.endsIn_of_none rfl] at hend
  subst hend
  have hheap : (notified event heap cons k).heap cons[k] = heap cons[k] :=
    if_neg (not_mem_take hnodup hk)
  rcases hevents cons[k] with ⟨j, -, -, hdelivered⟩ | ⟨hnone, -⟩
  · exact deliver_ne _ _ (hheap.symm.trans hdelivered)
  · have hat : (cons.take (k + 1))[k]? = some cons[k] := by
      rw [List.getElem?_take_of_lt (Nat.lt_succ_self k), List.getElem?_eq_getElem hk]
    have hfalse := hnone k hat
    rw [hkzalloc] at hfalse
    cases hfalse

/-! ## All of it -/

/-- With all allocations the loop ends, and every connection has got its event. -/
theorem endsIn_notified (hnodup : cons.Nodup) (h : ∀ k < cons.length, env.Smooth k) :
    Loop.EndsIn (notifyStep event env) ⟨heap, cons, [], 0⟩
      (notified event heap cons cons.length) := by
  have hleft : (notified event heap cons cons.length).left = [] := List.drop_length
  have hend : notifyStep event env (notified event heap cons cons.length) = none := by
    simp only [notifyStep, hleft]
  exact ⟨reaches_notified hnodup le_rfl h, hend⟩

theorem heap_notified (con : Nat) : (notified event heap cons cons.length).heap con
    = if con ∈ cons then (heap con).deliver (event (cons.idxOf con)) else heap con := by
  simp only [notified, List.take_length]

theorem reachesEveryone_of_smooth (hnodup : cons.Nodup) (h : ∀ k < cons.length, env.Smooth k) :
    ReachesEveryone (notifyStep event env) event env.kzalloc ⟨heap, cons, [], 0⟩ := by
  have htried : (notified event heap cons cons.length).tried = cons := List.take_length
  refine ⟨_, endsIn_notified hnodup h, htried.symm ▸ hnodup, fun con => ?_⟩
  rw [htried, heap_notified]
  by_cases hcon : con ∈ cons
  · have hat : cons.idxOf con < cons.length := List.idxOf_lt_length_iff.mpr hcon
    exact Or.inl ⟨cons.idxOf con, List.getElem?_idxOf hcon, (h _ hat).1, if_pos hcon⟩
  · exact Or.inr ⟨fun k hk => absurd (List.mem_of_getElem? hk) hcon, if_neg hcon⟩

theorem reachesEveryone_iff (hnodup : cons.Nodup) :
    ReachesEveryone (notifyStep event env) event env.kzalloc ⟨heap, cons, [], 0⟩
      ↔ ∀ k < cons.length, env.Smooth k := by
  refine ⟨?_, reachesEveryone_of_smooth hnodup⟩
  intro hreaches k
  -- by the first iteration in which something goes wrong
  induction k using Nat.strong_induction_on with
  | _ k ih =>
    intro hk
    have hbefore : ∀ j < k, env.Smooth j := fun j hj => ih j hj (lt_trans hj hk)
    cases hkzalloc : env.kzalloc k with
    | false => exact absurd hreaches (not_reachesEveryone_of_failed hnodup hk hbefore hkzalloc)
    | true =>
      cases hsignal : env.signal k with
      | true =>
        exact absurd hreaches (not_reachesEveryone_of_signal hnodup hk hbefore hkzalloc hsignal)
      | false => exact ⟨hkzalloc, hsignal⟩

end Run

/-! ## The other models of the loop -/

section Announcing

variable {slab : FileSlab} (timeline : QotTimeline) (timestamp : Nat → Utimepoint)

theorem heap_foldl_notifyTurn {l : List (ConNode slab)} (hnodup : (l.map (·.addr)).Nodup)
    (s : Announcing slab) (addr : Nat) :
    (l.foldl (Announcing.notifyTurn timeline timestamp) s).dev.heap addr
      = if addr ∈ l.map (·.addr) then
          (s.dev.heap addr).deliver ⟨.qotEventTimelineCreate, timestamp addr, timeline.name⟩
        else s.dev.heap addr := by
  induction l generalizing s with
  | nil => rfl
  | cons con rest ih =>
    obtain ⟨hfresh, hrest⟩ := List.nodup_cons.mp hnodup
    rw [List.foldl_cons, ih hrest]
    by_cases haddr : addr = con.addr
    · subst haddr
      simp [hfresh, Announcing.notifyTurn]
    · simp [haddr, Announcing.notifyTurn]

/-- **Where there is memory, the second step of a creation in `User.Notify` is this loop**, and each
iteration the turn of a connection in `User.Connection`. -/
theorem createNotify_endsIn (s : Announcing slab) (hnodup : s.dev.connections.Nodup) :
    ∃ e, Loop.EndsIn (qotUserTimelineCreateNotify timeline
          (fun k => timestamp (s.dev.connections.getD k 0)) fun _ => true) s.dev.notifyStart e
      ∧ ∀ addr, e.heap addr = (s.createNotify timeline timestamp).dev.heap addr
        ∧ (addr ∈ s.dev.connections → some (e.heap addr)
          = (s.dev.heap addr).qotUserTimelineCreateNotify timeline (timestamp addr) [true]) := by
  refine ⟨_, endsIn_notified hnodup fun _ _ => ⟨rfl, rfl⟩, fun addr => ?_⟩
  rw [heap_notified, Announcing.createNotify, heap_foldl_notifyTurn timeline timestamp hnodup]
  by_cases haddr : addr ∈ s.dev.connections
  · have hstamp : s.dev.connections.getD (s.dev.connections.idxOf addr) 0 = addr := by
      rw [List.getD_eq_getElem?_getD, List.getElem?_idxOf haddr, Option.getD_some]
    rw [if_pos haddr, timelineCreateEvent, hstamp]
    exact ⟨(if_pos haddr).symm, fun _ => rfl⟩
  · rw [if_neg haddr]
    exact ⟨(if_neg haddr).symm, fun h => absurd h haddr⟩

end Announcing

/-- Whatever connections are open and whatever allocations succeed: the user's loop does what it
should exactly if as many allocations succeed from the first one on as there are connections, and
the administrator's exactly if besides no signal interrupts it. -/
theorem notification_loops_iff {slab : FileSlab} (user admin : Chdev slab)
    (huser : user.connections.Nodup) (hadmin : admin.connections.Nodup) (timeline : QotTimeline)
    (timestamp : Nat → Utimepoint) (clk : CName) (kzalloc : Nat → Bool) (env : NotifyEnv) :
    (ReachesEveryone (qotUserTimelineCreateNotify timeline timestamp kzalloc)
        (timelineCreateEvent timeline timestamp) kzalloc user.notifyStart
      ↔ ∀ k < user.connections.length, kzalloc k = true)
    ∧ (ReachesEveryone (qotAdminClockRegisterNotify clk env) (clockCreateEvent clk) env.kzalloc
        admin.notifyStart
      ↔ ∀ k < admin.connections.length, env.kzalloc k = true ∧ env.signal k = false) := by
  refine ⟨?_, reachesEveryone_iff hadmin⟩
  refine (reachesEveryone_iff huser).trans (forall₂_congr fun k _ => ?_)
  exact and_iff_left rfl

/-- A device with two connections. -/
def twoConnections : Chdev Tracked.slab256 :=
  ⟨.node ⟨0, Tracked.fileLow⟩ .nil (.node ⟨1, Tracked.fileNext⟩ .nil .nil), fun _ => Con.new, 2⟩

theorem notification_loops_iff_two :
    twoConnections.connections.Nodup
      ∧ ReachesEveryone
        (qotUserTimelineCreateNotify ConHistory.timelineA (fun _ => Utimepoint.zero) fun _ => true)
        (timelineCreateEvent ConHistory.timelineA fun _ => Utimepoint.zero) (fun _ => true)
        twoConnections.notifyStart
      ∧ ReachesEveryone (qotAdminClockRegisterNotify nameA ⟨fun _ => true, fun _ => false⟩)
        (clockCreateEvent nameA) (fun _ => true) twoConnections.notifyStart := by
  have hnodup : twoConnections.connections.Nodup := by decide
  obtain ⟨huser, hadmin⟩ := notification_loops_iff twoConnections twoConnections hnodup hnodup
    ConHistory.timelineA (fun _ => Utimepoint.zero) nameA (fun _ => true)
    ⟨fun _ => true, fun _ => false⟩
  exact ⟨hnodup, huser.mpr fun _ _ => rfl, hadmin.mpr fun _ _ => ⟨rfl, rfl⟩⟩

/-- **Without memory the loops do not end.** -/
theorem notification_loops_endless :
    ¬ Loop.Ends (qotUserTimelineCreateNotify ConHistory.timelineA (fun _ => Utimepoint.zero)
      fun _ => false)
        twoConnections.notifyStart
      ∧ ¬ Loop.Ends (qotAdminClockRegisterNotify nameA ⟨fun _ => false, fun _ => false⟩)
        twoConnections.notifyStart := by
  -- the connection stays the first one
  have hstays : ∀ (event : Nat → QotEvent) (signal : Nat → Bool),
      ¬ Loop.Ends (notifyStep event ⟨fun _ => false, signal⟩) twoConnections.notifyStart := by
    intro event signal
    refine Loop.not_ends_of_invariant (I := fun s => s.left = [0, 1]) rfl ?_
    intro s hs
    exact ⟨{ s with tried := s.tried ++ [0] }, by simp [notifyStep, hs], hs⟩
  exact ⟨hstays _ _, hstays _ _⟩

end Qot
