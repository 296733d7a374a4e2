import Mathlib.Logic.Function.Iterate
import QotStack.Scheduler.Pass
import QotStack.Types.Arithmetic

/-!
# QotStack — when a periodic timer fires

The life of one timer, from the request that creates it, among everything else that happens on its
timeline: other processes join, leave, create and destroy timers, tasks sleep and go, and passes of
the wake-up loop visit whatever is first. The passes are broken up into their iterations (`visit`),
so that what holds in every state holds right after each signal.

The log of the signals is the clock of the proof. With `m` signals so far the timer is queued once,
for its `m`-th release, and its counter stands at `m + 1` (`Running`); the signal that finds the
counter at the requested number takes the timer off the tree and out of its binding (`Finished`).
What a step can do is said once (`StepEffect`).

Releases follow one another by `timepoint_add`, which nothing keeps from wrapping. `timer_fires` has
both: the releases are what the additions give, always, and a whole number of periods after the
first as long as each sum fits its fields.
-/

namespace Qot

/-! ## Everything that happens on a timeline -/

inductive LifeOp where
  | join (pid : Int32) (msgb : Option QotBinding) (alloc : Bool)
  | leave (pid : Int32) (copied : Bool)
  | create (pid : Int32) (timer : Option QotTimer) (env : CreateTimerEnv)
  | destroy (pid : Int32) (copied : Bool)
  /-- A task goes to sleep. -/
  | sleep (addr : Nat) (pid : Int32) (expires : Timepoint)
  /-- A task that runs again takes its node off. -/
  | resume (addr : Nat)
  /-- The next iteration of a pass, by whatever test, or the end of the pass. -/
  | visit (expired : Timepoint → Bool) (alive : Int32 → Bool)

/-- A call; a pass that it finds half done is over. -/
def Pass.call (s : Pass) (op : TimerOp) : Option Pass :=
  (timerStep ⟨s.table, s.events⟩ op).map fun s' => ⟨s'.table, [], s'.events, s.log⟩

def Pass.setEvents (s : Pass) (events : List TimelineSleeper) : Pass := ⟨s.table, [], events, s.log⟩

def lifeStep (s : Pass) : LifeOp → Option Pass
  | .join pid msgb alloc => s.call (.join pid msgb alloc)
  | .leave pid copied => s.call (.leave pid copied)
  | .create pid timer env => s.call (.create pid timer env)
  | .destroy pid copied => s.call (.destroy pid copied)
  | .sleep addr pid expires =>
    if addr ∈ addrs s.events then none
    else some (s.setEvents (qotTimelineEventAdd s.events (qotInitSleeper addr pid expires)))
  | .resume addr =>
    if s.events.any fun t => decide (t.addr = addr) && !t.periodicTimerFlag then
      some (s.setEvents (eventErase s.events addr))
    else none
  -- where the loop stops the pass is over, and the next visit begins at the first node again
  | .visit expired alive => some ((wakeOne expired alive s).getD (s.setEvents s.events))

/-! ## The timers of a process -/

section Timers

variable (pid : Int32)

def isTimerOf (t : TimelineSleeper) : Bool := t.periodicTimerFlag && decide (t.pid = pid)

/-- The queued timers of a process. -/
def Pass.timersOf (s : Pass) : List TimelineSleeper := s.events.filter (isTimerOf pid)

/-- The signals it got, each as the timer that was queued. -/
def Pass.signals (s : Pass) : List TimelineSleeper := s.log.filter (isTimerOf pid)

theorem isTimerOf_iff {t : TimelineSleeper} :
    isTimerOf pid t = true ↔ t.periodicTimerFlag = true ∧ t.pid = pid := by
  simp [isTimerOf]

end Timers

/-- One binding for a process, one node at an address. -/
structure Sane (s : Pass) : Prop where
  pidsNodup : (pids s.table.root).Nodup
  addrsNodup : (addrs s.events).Nodup

/-! ## One visit -/

/-- What an iteration makes of the tree, the bindings and the log, in whatever order the tree is. -/
inductive VisitEffect (alive : Bool) (s : Pass) (t : TimelineSleeper)
    (others : List TimelineSleeper) (s' : Pass) : Prop where
  | requeued (periodic : t.periodicTimerFlag = true) (living : alive = true)
    (counts : t.timerCounts < t.timer.count ∨ t.timer.count = 0)
    (events : s'.events.Perm (t.nextRelease :: others)) (table : s'.table.root = s.table.root)
    (log : s'.log = s.log ++ [t])
  | finished (periodic : t.periodicTimerFlag = true) (living : alive = true)
    (counts : ¬ (t.timerCounts < t.timer.count ∨ t.timer.count = 0)) (events : s'.events = others)
    (table : s'.table.root = modifyBinding s.table.root t.pid fun b => { b with timer := none })
    (log : s'.log = s.log ++ [t])
  | orphaned (periodic : t.periodicTimerFlag = true) (dead : alive = false)
    (events : s'.events = others)
    (table : s'.table.root = modifyBinding s.table.root t.pid fun b => { b with timer := none })
    (log : s'.log = s.log)
  | kept (blocking : t.periodicTimerFlag = false) (t' : TimelineSleeper) (addr : t'.addr = t.addr)
    (blocking' : t'.periodicTimerFlag = false) (events : s'.events.Perm (t' :: others))
    (table : s'.table.root = s.table.root) (log : s'.log = s.log ∨ s'.log = s.log ++ [t])

theorem Visited.effect {alive : Bool} {s s' : Pass} {t : TimelineSleeper}
    {rest : List TimelineSleeper} (h : Visited alive s t rest s') :
    VisitEffect alive s t (s.done ++ rest) s' := by
  cases h with
  | behind hper hliving hcounts _ =>
    refine .requeued hper hliving hcounts ?_ rfl rfl
    exact ((eventAdd_perm rest t.nextRelease).append_left s.done).trans List.perm_middle
  | skipped hper hliving hcounts _ =>
    refine .requeued hper hliving hcounts ?_ rfl rfl
    exact (eventAdd_perm s.done t.nextRelease).append_right rest
  | finished hper hliving hcounts => exact .finished hper hliving hcounts rfl rfl rfl
  | orphaned hper hdead => exact .orphaned hper hdead rfl rfl rfl
  | woken hblock _ =>
    refine .kept hblock t.woken rfl hblock ?_ rfl (Or.inr rfl)
    show (s.done ++ [t.woken] ++ rest).Perm (t.woken :: (s.done ++ rest))
    rw [List.append_assoc]
    exact List.perm_middle
  | passed hblock _ =>
    refine .kept hblock t rfl hblock ?_ rfl (Or.inl rfl)
    show (s.done ++ [t] ++ rest).Perm (t :: (s.done ++ rest))
    rw [List.append_assoc]
    exact List.perm_middle

/-- **A visit** does nothing but end the pass, or has one of these effects on the first node
ahead. -/
theorem visit_cases {s s' : Pass} {expired : Timepoint → Bool} {alive : Int32 → Bool}
    (h : lifeStep s (.visit expired alive) = some s') :
    (s'.events = s.events ∧ s'.table = s.table ∧ s'.log = s.log)
      ∨ ∃ t rest, s.ahead = t :: rest ∧ s.events.Perm (t :: (s.done ++ rest))
        ∧ VisitEffect (alive t.pid) s t (s.done ++ rest) s' := by
  have h' : (wakeOne expired alive s).getD (s.setEvents s.events) = s' := Option.some.inj h
  cases hwake : wakeOne expired alive s with
  | none =>
    rw [hwake, Option.getD_none] at h'
    rw [← h']
    exact Or.inl ⟨rfl, rfl, rfl⟩
  | some a =>
    rw [hwake, Option.getD_some] at h'
    obtain ⟨t, rest, hahead, -, hvisit⟩ := wakeOne_some hwake
    rw [h'] at hvisit
    refine Or.inr ⟨t, rest, hahead, ?_, hvisit.effect⟩
    rw [Pass.events, hahead]
    exact List.perm_middle

/-! ## One step -/

/-- What a step makes of the bindings, the tree and the log. -/
inductive StepEffect (s s' : Pass) : LifeOp → Prop where
  /-- The call is refused, or the pass is over. -/
  | nothing (op : LifeOp) (root : s'.table.root = s.table.root) (events : s'.events = s.events)
    (log : s'.log = s.log) : StepEffect s s' op
  | joined {q : Int32} {msgb : Option QotBinding} {alloc : Bool} (fresh : q ∉ pids s.table.root)
    (info : QotBinding) (root : s'.table.root.Perm (⟨info, q, none⟩ :: s.table.root))
    (events : s'.events = s.events) (log : s'.log = s.log) : StepEffect s s' (.join q msgb alloc)
  | left {q : Int32} (root : s'.table.root = s.table.root.filter fun b => b.pid ≠ q)
    (events : s'.events = s.events) (log : s'.log = s.log) : StepEffect s s' (.leave q true)
  | created {q : Int32} {timer : Option QotTimer} {env : CreateTimerEnv} {t : TimelineSleeper}
    (fresh : t.addr ∉ addrs s.events) (owner : t.pid = q)
    (root : s'.table.root = modifyBinding s.table.root q fun b => { b with timer := some t.addr })
    (events : s'.events = qotTimelineEventAdd s.events t) (log : s'.log = s.log) :
    StepEffect s s' (.create q timer env)
  | destroyed {q : Int32} {copied : Bool} {b : BindingImpl} {a : Nat}
    (found : findBinding s.table.root q = some b) (timer : b.timer = some a)
    (root : s'.table.root = s.table.root) (events : s'.events = eventErase s.events a)
    (log : s'.log = s.log) : StepEffect s s' (.destroy q copied)
  | slept {addr : Nat} {q : Int32} {expires : Timepoint} (fresh : addr ∉ addrs s.events)
    (root : s'.table.root = s.table.root)
    (events : s'.events = qotTimelineEventAdd s.events (qotInitSleeper addr q expires))
    (log : s'.log = s.log) : StepEffect s s' (.sleep addr q expires)
  /-- The node at the address is a blocked task. -/
  | resumed {addr : Nat} {u : TimelineSleeper} (node : u ∈ s.events) (place : u.addr = addr)
    (blocking : u.periodicTimerFlag = false) (root : s'.table.root = s.table.root)
    (events : s'.events = eventErase s.events addr) (log : s'.log = s.log) :
    StepEffect s s' (.resume addr)
  | visited {expired : Timepoint → Bool} {alive : Int32 → Bool} {t : TimelineSleeper}
    {rest : List TimelineSleeper} (first : s.ahead = t :: rest)
    (events : s.events.Perm (t :: (s.done ++ rest)))
    (effect : VisitEffect (alive t.pid) s t (s.done ++ rest) s') :
    StepEffect s s' (.visit expired alive)

/-- **Inversion of a step.** -/
theorem lifeStep_effect {s s' : Pass} {op : LifeOp} (h : lifeStep s op = some s') :
    StepEffect s s' op := by
  cases op with
  | join q msgb alloc =>
    cases h
    rcases timelineBindJoin_root s.table q msgb alloc with hsame | ⟨hfresh, info, hperm⟩
    · exact .nothing _ hsame rfl rfl
    · exact .joined hfresh info hperm rfl rfl
  | leave q copied =>
    cases h
    rcases timelineBindLeave_root s.table q copied with hsame | ⟨rfl, -, hroot⟩
    · exact .nothing _ hsame rfl rfl
    · exact .left hroot rfl rfl
  | create q timer env =>
    obtain ⟨a, ha, rfl⟩ := Option.map_eq_some_iff.mp h
    rcases timelineCreateTimer_cases ha with rfl | ⟨r, c, t, b, -, -, hfresh, ht, -, -, rfl⟩
    · exact .nothing _ rfl rfl rfl
    · obtain ⟨rfl, hpid, -⟩ := qotInitTimerSleeper_fields ht
      exact .created hfresh hpid rfl rfl rfl
  | destroy q copied =>
    obtain ⟨a, ha, rfl⟩ := Option.map_eq_some_iff.mp h
    rcases timelineDestroyTimer_cases ha with rfl | ⟨b, c, -, hfind, htimer, rfl⟩
    · exact .nothing _ rfl rfl rfl
    · exact .destroyed hfind htimer rfl rfl rfl
  | sleep addr q expires =>
    simp only [lifeStep] at h
    split at h
    · cases h
    · next hfresh =>
      cases h
      exact .slept hfresh rfl rfl rfl
  | resume addr =>
    simp only [lifeStep] at h
    split at h
    · next hany =>
      cases h
      obtain ⟨u, hu, hblock⟩ := List.any_eq_true.mp hany
      have hublock : u.addr = addr ∧ u.periodicTimerFlag = false := by simpa using hblock
      exact .resumed hu hublock.1 hublock.2 rfl rfl rfl
    · cases h
  | visit expired alive =>
    rcases visit_cases h with ⟨hev, htable, hlog⟩ | ⟨t, rest, hahead, hperm, heffect⟩
    · exact .nothing _ (congrArg BindingTable.root htable) hev hlog
    · exact .visited hahead hperm heffect

/-! ## What keeps addresses and processes apart -/

section Sane

variable {s s' : Pass}

theorem addrs_perm {l l' : List TimelineSleeper} (h : l.Perm l') : (addrs l).Perm (addrs l') :=
  h.map _

theorem Sane.visit {t : TimelineSleeper} {others : List TimelineSleeper} {alive : Bool}
    (h : Sane s) (hevents : s.events.Perm (t :: others))
    (heffect : VisitEffect alive s t others s') : Sane s' := by
  have hnodup : (addrs (t :: others)).Nodup := (addrs_perm hevents).nodup_iff.mp h.addrsNodup
  have hcleared : (pids (modifyBinding s.table.root t.pid
      fun b => { b with timer := none })).Nodup := by
    rw [pids_modifyBinding (f := fun b => { b with timer := none }) fun _ => rfl]
    exact h.pidsNodup
  cases heffect with
  | requeued _ _ _ hev htable _ =>
    exact ⟨htable ▸ h.pidsNodup, (addrs_perm hev).nodup_iff.mpr hnodup⟩
  | finished _ _ _ hev htable _ =>
    exact ⟨htable ▸ hcleared, hev ▸ (List.nodup_cons.mp hnodup).2⟩
  | orphaned _ _ hev htable _ =>
    exact ⟨htable ▸ hcleared, hev ▸ (List.nodup_cons.mp hnodup).2⟩
  | kept _ t' haddr _ hev htable _ =>
    refine ⟨htable ▸ h.pidsNodup, (addrs_perm hev).nodup_iff.mpr ?_⟩
    show (t'.addr :: addrs others).Nodup
    rw [haddr]
    exact hnodup

theorem addrs_nodup_eventAdd {events : List TimelineSleeper} {t : TimelineSleeper}
    (hfresh : t.addr ∉ addrs events) (h : (addrs events).Nodup) :
    (addrs (qotTimelineEventAdd events t)).Nodup :=
  (addrs_eventAdd_perm events t).nodup_iff.mpr (List.nodup_cons.mpr ⟨hfresh, h⟩)

/-- Every step keeps them apart. -/
theorem Sane.step (h : Sane s) {op : LifeOp} (hstep : lifeStep s op = some s') : Sane s' := by
  cases lifeStep_effect hstep with
  | nothing _ hroot hev _ => exact ⟨hroot ▸ h.pidsNodup, hev ▸ h.addrsNodup⟩
  | @joined q _ _ hfresh _ hroot hev _ =>
    have hpids : (pids s'.table.root).Perm (q :: pids s.table.root) := hroot.map _
    exact ⟨hpids.nodup_iff.mpr (List.nodup_cons.mpr ⟨hfresh, h.pidsNodup⟩), hev ▸ h.addrsNodup⟩
  | left hroot hev _ =>
    refine ⟨?_, hev ▸ h.addrsNodup⟩
    rw [hroot, pids_filter]
    exact h.pidsNodup.filter _
  | @created q _ _ t hfresh _ hroot hev _ =>
    refine ⟨?_, hev ▸ addrs_nodup_eventAdd hfresh h.addrsNodup⟩
    rw [hroot, pids_modifyBinding (f := fun b => { b with timer := some t.addr }) fun _ => rfl]
    exact h.pidsNodup
  | destroyed _ _ hroot hev _ =>
    exact ⟨hroot ▸ h.pidsNodup, hev ▸ addrs_nodup_eventErase h.addrsNodup _⟩
  | slept hfresh hroot hev _ =>
    exact ⟨hroot ▸ h.pidsNodup, hev ▸ addrs_nodup_eventAdd hfresh h.addrsNodup⟩
  | resumed _ _ _ hroot hev _ =>
    exact ⟨hroot ▸ h.pidsNodup, hev ▸ addrs_nodup_eventErase h.addrsNodup _⟩
  | visited _ hperm heffect => exact h.visit hperm heffect

end Sane

/-! ## What leaves the timers of a process alone -/

section Alone

variable {pid : Int32} {s s' : Pass} {t : TimelineSleeper}

theorem timersOf_eventAdd {events : List TimelineSleeper} (h : isTimerOf pid t = false) :
    ((qotTimelineEventAdd events t).filter (isTimerOf pid)).Perm
      (events.filter (isTimerOf pid)) := by
  have hperm := (eventAdd_perm events t).filter (isTimerOf pid)
  rw [List.filter_cons_of_neg (by simp [h])] at hperm
  exact hperm

theorem timersOf_eventErase {events : List TimelineSleeper} {addr : Nat}
    (h : ∀ t ∈ events.filter (isTimerOf pid), t.addr ≠ addr) :
    (eventErase events addr).filter (isTimerOf pid) = events.filter (isTimerOf pid) := by
  rw [eventErase, List.filter_filter]
  refine List.filter_congr fun t ht => ?_
  cases htimer : isTimerOf pid t with
  | false => rfl
  | true =>
    have hne := h t (List.mem_filter.mpr ⟨ht, htimer⟩)
    simpa using hne

/-- The step does not create, destroy or visit a timer of the process. -/
def LeavesAlone (pid : Int32) (s : Pass) : LifeOp → Prop
  | .create q _ _ => q ≠ pid
  | .destroy q _ => ∀ b a, findBinding s.table.root q = some b → b.timer = some a →
      ∀ t ∈ s.timersOf pid, t.addr ≠ a
  | .visit _ _ => ∀ t ∈ s.ahead.head?, isTimerOf pid t = false
  | _ => True

theorem VisitEffect.timers {alive : Bool} {others : List TimelineSleeper}
    (h : VisitEffect alive s t others s') (ht : isTimerOf pid t = false) :
    (s'.timersOf pid).Perm (others.filter (isTimerOf pid)) ∧ s'.signals pid = s.signals pid := by
  have hnext : isTimerOf pid t.nextRelease = false := ht
  have hlog : (s.log ++ [t]).filter (isTimerOf pid) = s.log.filter (isTimerOf pid) := by
    rw [List.filter_append, List.filter_singleton, ht]
    exact List.append_nil _
  cases h with
  | requeued _ _ _ hev _ hl =>
    have hperm := hev.filter (isTimerOf pid)
    rw [List.filter_cons_of_neg (by simp [hnext])] at hperm
    exact ⟨hperm, by rw [Pass.signals, hl, hlog]; rfl⟩
  | finished _ _ _ hev _ hl =>
    exact ⟨by rw [Pass.timersOf, hev], by rw [Pass.signals, hl, hlog]; rfl⟩
  | orphaned _ _ hev _ hl =>
    exact ⟨by rw [Pass.timersOf, hev], by rw [Pass.signals, hl]; rfl⟩
  | kept _ t' _ hblock hev _ hl =>
    have hperm := hev.filter (isTimerOf pid)
    rw [List.filter_cons_of_neg (by simp [isTimerOf, hblock])] at hperm
    refine ⟨hperm, ?_⟩
    rcases hl with hl | hl
    · rw [Pass.signals, hl]
      rfl
    · rw [Pass.signals, hl, hlog]
      rfl

/-- The process has the timers and got the signals it had. -/
structure LeftAlone (pid : Int32) (s s' : Pass) : Prop where
  timers : (s'.timersOf pid).Perm (s.timersOf pid)
  signals : s'.signals pid = s.signals pid

theorem leftAlone_of_perm
    (h : (s'.events.filter (isTimerOf pid)).Perm (s.events.filter (isTimerOf pid)))
    (hlog : s'.log = s.log) : LeftAlone pid s s' :=
  ⟨h, by rw [Pass.signals, hlog]; rfl⟩

theorem leftAlone_of_eq (hev : s'.events = s.events) (hlog : s'.log = s.log) : LeftAlone pid s s' :=
  leftAlone_of_perm (hev ▸ List.Perm.refl _) hlog

/-- **Such a step changes neither the timers nor the signals.** -/
theorem leftAlone_step (hsane : Sane s) {op : LifeOp} (halone : LeavesAlone pid s op)
    (hstep : lifeStep s op = some s') : LeftAlone pid s s' := by
  cases lifeStep_effect hstep with
  | nothing _ _ hev hlog => exact leftAlone_of_eq hev hlog
  | joined _ _ _ hev hlog => exact leftAlone_of_eq hev hlog
  | left _ hev hlog => exact leftAlone_of_eq hev hlog
  | created _ howner _ hev hlog =>
    refine leftAlone_of_perm (hev ▸ timersOf_eventAdd ?_) hlog
    simp [isTimerOf, howner.trans_ne halone]
  | destroyed hfind htimer _ hev hlog =>
    exact leftAlone_of_perm (hev ▸ .of_eq (timersOf_eventErase (halone _ _ hfind htimer))) hlog
  | slept _ _ hev hlog => exact leftAlone_of_perm (hev ▸ timersOf_eventAdd rfl) hlog
  | resumed hnode hplace hblock _ hev hlog =>
    refine leftAlone_of_perm (hev ▸ .of_eq (timersOf_eventErase ?_)) hlog
    -- the node that goes is a blocked task, so it is none of the timers
    intro t ht haddr
    obtain ⟨htmem, htimer⟩ := List.mem_filter.mp ht
    have hsame := eq_of_addr_eq hsane.addrsNodup hnode htmem (hplace.trans haddr.symm)
    rw [← hsame, isTimerOf, hblock] at htimer
    cases htimer
  | @visited _ _ t _ hahead hperm heffect =>
    have ht : isTimerOf pid t = false := halone t (by rw [hahead]; rfl)
    obtain ⟨htimers, hsignals⟩ := heffect.timers ht
    refine ⟨htimers.trans ?_, hsignals⟩
    have hsame := hperm.filter (isTimerOf pid)
    rw [List.filter_cons_of_neg (by simp [ht])] at hsame
    exact hsame.symm

/-- The process stays bound, and its binding keeps its timer. -/
def StaysBound (pid : Int32) (s s' : Pass) : Prop :=
  ∀ b ∈ s.table.root, b.pid = pid → ∃ b' ∈ s'.table.root, b'.pid = pid ∧ b'.timer = b.timer

theorem staysBound_of_root (h : s'.table.root = s.table.root) : StaysBound pid s s' := by
  intro b hb hpid
  exact ⟨b, h ▸ hb, hpid, rfl⟩

theorem staysBound_modify {q : Int32} {f : BindingImpl → BindingImpl} (hq : q ≠ pid)
    (h : s'.table.root = modifyBinding s.table.root q f) : StaysBound pid s s' := by
  intro b hb hpid
  refine ⟨b, ?_, hpid, rfl⟩
  rw [h]
  exact mem_modifyBinding.mpr ⟨b, hb, if_neg (hpid ▸ hq.symm)⟩

theorem staysBound_visit {alive : Bool} {others : List TimelineSleeper}
    (h : VisitEffect alive s t others s') (ht : isTimerOf pid t = false) : StaysBound pid s s' := by
  have hother : t.periodicTimerFlag = true → t.pid ≠ pid := by
    intro hper he
    rw [(isTimerOf_iff pid).mpr ⟨hper, he⟩] at ht
    cases ht
  cases h with
  | requeued _ _ _ _ htable _ => exact staysBound_of_root htable
  | finished hper _ _ _ htable _ => exact staysBound_modify (hother hper) htable
  | orphaned hper _ _ htable _ => exact staysBound_modify (hother hper) htable
  | kept _ _ _ _ _ htable _ => exact staysBound_of_root htable

/-- A step that leaves the timers of the process alone leaves its binding alone, unless the process
leaves. -/
theorem staysBound_step {op : LifeOp} (halone : LeavesAlone pid s op)
    (hleave : ∀ copied, op = .leave pid copied → copied = false)
    (hstep : lifeStep s op = some s') : StaysBound pid s s' := by
  cases lifeStep_effect hstep with
  | nothing _ hroot _ _ => exact staysBound_of_root hroot
  | joined _ _ hroot _ _ =>
    intro b hb hpid
    exact ⟨b, hroot.mem_iff.mpr (List.mem_cons_of_mem _ hb), hpid, rfl⟩
  | @left q hroot _ _ =>
    intro b hb hpid
    refine ⟨b, ?_, hpid, rfl⟩
    have hne : b.pid ≠ q := by
      rintro rfl
      exact Bool.false_ne_true (hleave true (by rw [hpid])).symm
    rw [hroot]
    exact List.mem_filter.mpr ⟨hb, by simpa using hne⟩
  | created _ _ hroot _ _ => exact staysBound_modify halone hroot
  | destroyed _ _ hroot _ _ => exact staysBound_of_root hroot
  | slept _ hroot _ _ => exact staysBound_of_root hroot
  | resumed _ _ _ hroot _ _ => exact staysBound_of_root hroot
  | visited hahead _ heffect => exact staysBound_visit heffect (halone _ (by rw [hahead]; rfl))

end Alone

/-! ## The life of one timer -/

section Life

variable (pid : Int32) (addr : Nat) (timer : QotTimer) (first : Timepoint)

/-- The `k`-th release after the first, by repeated addition. -/
def release (k : Nat) : Timepoint := (fun e => timepointAdd e timer.period)^[k] first

/-- **The signals are counted**: there are no more than requested; the timer is queued once until
the last, and then neither it nor its address is left. -/
structure FiresCounted (s : Pass) : Prop where
  atMost : timer.count ≠ 0 → ((s.signals pid).length : Int) ≤ timer.count.toInt
  releases : ∀ k t, (s.signals pid)[k]? = some t → t.qotExpires = release timer first k
  queued : timer.count = 0 ∨ ((s.signals pid).length : Int) < timer.count.toInt →
    ∃ t, s.timersOf pid = [t] ∧ t.addr = addr
  gone : timer.count ≠ 0 → ((s.signals pid).length : Int) = timer.count.toInt →
    s.timersOf pid = [] ∧ ∃ b, findBinding s.table.root pid = some b ∧ b.timer = none

/-- **The timer fires as requested**: the signals are counted, and each is for a whole number of
periods after the first. -/
structure FiresAsRequested (s : Pass) : Prop where
  counted : FiresCounted pid addr timer first s
  exact : ∀ (k : Nat) t, (s.signals pid)[k]? = some t →
    t.qotExpires.value = first.value + k * timer.period.value

/-- With so many signals, the timer is queued for the next release. -/
structure Running (s : Pass) (t : TimelineSleeper) : Prop where
  timers : s.timersOf pid = [t]
  sameAddr : t.addr = addr
  sameTimer : t.timer = timer
  expires : t.qotExpires = release timer first (s.signals pid).length
  counts : timer.count ≠ 0 → t.timerCounts.toInt = (s.signals pid).length + 1
    ∧ ((s.signals pid).length : Int) < timer.count.toInt

structure Finished (s : Pass) : Prop where
  count : timer.count ≠ 0
  last : ((s.signals pid).length : Int) = timer.count.toInt
  timers : s.timersOf pid = []
  binding : ∃ b ∈ s.table.root, b.pid = pid ∧ b.timer = none

structure Follows (s : Pass) : Prop where
  sane : Sane s
  bound : ∃ b ∈ s.table.root, b.pid = pid
  releases : ∀ k t, (s.signals pid)[k]? = some t → t.qotExpires = release timer first k
  phase : (∃ t, Running pid addr timer first s t) ∨ Finished pid timer s

variable {pid addr timer first} {s s' : Pass}

theorem Follows.firesCounted (h : Follows pid addr timer first s) :
    FiresCounted pid addr timer first s := by
  rcases h.phase with ⟨t, hrun⟩ | hfin
  · refine ⟨fun hcount => (hrun.counts hcount).2.le, h.releases,
      fun _ => ⟨t, hrun.timers, hrun.sameAddr⟩, fun hcount hlast => ?_⟩
    have := (hrun.counts hcount).2
    omega
  · refine ⟨fun _ => hfin.last.le, h.releases, fun hopen => ?_, fun _ _ => ⟨hfin.timers, ?_⟩⟩
    · have hcount := hfin.count
      have hlast := hfin.last
      rcases hopen with hzero | hlt
      · exact absurd hzero hcount
      · omega
    · obtain ⟨b, hb, hpid, htimer⟩ := hfin.binding
      exact ⟨b, hpid ▸ findBinding_of_mem h.sane.pidsNodup hb, htimer⟩

/-- Nothing changes for the timer. -/
theorem Follows.of_alone (h : Follows pid addr timer first s) (hsane : Sane s')
    (halone : LeftAlone pid s s') (hbound : StaysBound pid s s') :
    Follows pid addr timer first s' := by
  obtain ⟨htimers, hsignals⟩ := halone
  refine ⟨hsane, ?_, by rw [hsignals]; exact h.releases, ?_⟩
  · obtain ⟨b, hb, hpid⟩ := h.bound
    obtain ⟨b', hb', hpid', -⟩ := hbound b hb hpid
    exact ⟨b', hb', hpid'⟩
  · rcases h.phase with ⟨t, hrun⟩ | hfin
    · rw [hrun.timers] at htimers
      exact Or.inl ⟨t, List.perm_singleton.mp htimers, hrun.sameAddr, hrun.sameTimer,
        by rw [hsignals]; exact hrun.expires, by rw [hsignals]; exact hrun.counts⟩
    · rw [hfin.timers] at htimers
      obtain ⟨b, hb, hpid, hnone⟩ := hfin.binding
      obtain ⟨b', hb', hpid', htimer'⟩ := hbound b hb hpid
      exact Or.inr ⟨hfin.count, by rw [hsignals]; exact hfin.last, List.perm_nil.mp htimers,
        b', hb', hpid', htimer'.trans hnone⟩

variable {t : TimelineSleeper} {others : List TimelineSleeper} {op : LifeOp}

/-- The list of signals after one more. -/
theorem releases_concat {signals : List TimelineSleeper}
    (h : ∀ k u, signals[k]? = some u → u.qotExpires = release timer first k)
    (ht : t.qotExpires = release timer first signals.length) :
    ∀ k u, (signals ++ [t])[k]? = some u → u.qotExpires = release timer first k := by
  intro k u hu
  rcases Nat.lt_trichotomy k signals.length with hlt | rfl | hgt
  · rw [List.getElem?_append_left hlt] at hu
    exact h k u hu
  · rw [List.getElem?_concat_length, Option.some.injEq] at hu
    exact hu ▸ ht
  · rw [List.getElem?_eq_none (by simpa using Nat.succ_le_of_lt hgt)] at hu
    cases hu

/-- A timer of the process that is visited is the one that is queued, and there is no other. -/
theorem Follows.running (h : Follows pid addr timer first s) (hperm : s.events.Perm (t :: others))
    (ht : isTimerOf pid t = true) :
    Running pid addr timer first s t ∧ others.filter (isTimerOf pid) = [] := by
  have hfilter := hperm.filter (isTimerOf pid)
  rw [List.filter_cons_of_pos ht, ← Pass.timersOf] at hfilter
  rcases h.phase with ⟨t₀, hrun⟩ | hfin
  · rw [hrun.timers] at hfilter
    obtain ⟨hsame, hothers⟩ := List.cons.inj (List.singleton_perm.mp hfilter)
    exact ⟨hsame ▸ hrun, hothers.symm⟩
  · rw [hfin.timers] at hfilter
    exact absurd hfilter.symm (List.cons_ne_nil _ _ ∘ List.perm_nil.mp)

/-- A signal is logged. -/
theorem signals_concat (ht : isTimerOf pid t = true) (hlog : s'.log = s.log ++ [t]) :
    s'.signals pid = s.signals pid ++ [t]
      ∧ (s'.signals pid).length = (s.signals pid).length + 1 := by
  have hsignals : s'.signals pid = s.signals pid ++ [t] := by
    rw [Pass.signals, hlog, List.filter_append, List.filter_singleton, ht]
    rfl
  exact ⟨hsignals, by rw [hsignals, List.length_append, List.length_singleton]⟩

/-- The timer is signalled and queued for the release after. -/
theorem Follows.requeued (h : Follows pid addr timer first s) (hsane : Sane s')
    (hrun : Running pid addr timer first s t) (hothers : others.filter (isTimerOf pid) = [])
    (ht : isTimerOf pid t = true) (hcounts : t.timerCounts < t.timer.count ∨ t.timer.count = 0)
    (hev : s'.events.Perm (t.nextRelease :: others)) (htable : s'.table.root = s.table.root)
    (hlog : s'.log = s.log ++ [t]) : Follows pid addr timer first s' := by
  obtain ⟨hsignals, hlen⟩ := signals_concat ht hlog
  refine ⟨hsane, htable ▸ h.bound, ?_,
    Or.inl ⟨t.nextRelease, ?_, hrun.sameAddr, hrun.sameTimer, ?_, ?_⟩⟩
  · rw [hsignals]
    exact releases_concat h.releases hrun.expires
  · have hnext := hev.filter (isTimerOf pid)
    rw [List.filter_cons_of_pos (show isTimerOf pid t.nextRelease = true from ht), hothers] at hnext
    exact List.perm_singleton.mp hnext
  · show timepointAdd t.qotExpires t.timer.period = _
    rw [hlen, hrun.expires, hrun.sameTimer, release, release, Function.iterate_succ_apply']
  · intro hcount
    obtain ⟨hnow, -⟩ := hrun.counts hcount
    have hbelow : t.timerCounts < t.timer.count :=
      hcounts.resolve_right (by rw [hrun.sameTimer]; exact hcount)
    have hlt := Int32.lt_iff_toInt_lt.mp hbelow
    rw [hrun.sameTimer] at hlt
    -- below the number asked for the counter does not wrap
    rw [nextRelease_counts hbelow]
    omega

/-- The timer is signalled for the last time. -/
theorem Follows.finished (h : Follows pid addr timer first s) (hsane : Sane s')
    (hrun : Running pid addr timer first s t) (hothers : others.filter (isTimerOf pid) = [])
    (ht : isTimerOf pid t = true) (hcounts : ¬ (t.timerCounts < t.timer.count ∨ t.timer.count = 0))
    (hev : s'.events = others)
    (htable : s'.table.root = modifyBinding s.table.root t.pid fun b => { b with timer := none })
    (hlog : s'.log = s.log ++ [t]) : Follows pid addr timer first s' := by
  obtain ⟨hsignals, hlen⟩ := signals_concat ht hlog
  rw [hrun.sameTimer, not_or] at hcounts
  obtain ⟨hnow, hopen⟩ := hrun.counts hcounts.2
  -- the counter is one ahead of the signals, so with this one their number is the one asked for
  have hge : ¬ t.timerCounts.toInt < timer.count.toInt := fun hlt =>
    hcounts.1 (Int32.lt_iff_toInt_lt.mpr hlt)
  obtain ⟨b, hb, hbpid⟩ := h.bound
  have hcleared : { b with timer := none } ∈ s'.table.root := by
    rw [htable]
    exact mem_modifyBinding.mpr ⟨b, hb, if_pos (hbpid.trans ((isTimerOf_iff pid).mp ht).2.symm)⟩
  refine ⟨hsane, ⟨_, hcleared, hbpid⟩, ?_,
    Or.inr ⟨hcounts.2, by omega, ?_, _, hcleared, hbpid, rfl⟩⟩
  · rw [hsignals]
    exact releases_concat h.releases hrun.expires
  · rw [Pass.timersOf, hev, hothers]

/-- **The timer is visited.** -/
theorem Follows.of_own (h : Follows pid addr timer first s) (hsane : Sane s')
    (hrun : Running pid addr timer first s t) (hothers : others.filter (isTimerOf pid) = [])
    (ht : isTimerOf pid t = true) (heffect : VisitEffect true s t others s') :
    Follows pid addr timer first s' := by
  cases heffect with
  | requeued _ _ hcounts hev htable hlog =>
    exact h.requeued hsane hrun hothers ht hcounts hev htable hlog
  | finished _ _ hcounts hev htable hlog =>
    exact h.finished hsane hrun hothers ht hcounts hev htable hlog
  | orphaned _ hdead _ _ _ => cases hdead
  | kept hblock _ _ _ _ _ _ =>
    rw [((isTimerOf_iff pid).mp ht).1] at hblock
    cases hblock

/-- The process lives, creates no other timer and stays bound, and its timer is not destroyed. -/
def Undisturbed (pid : Int32) (s : Pass) : LifeOp → Prop
  | .leave q copied => q = pid → copied = false
  | .create q _ _ => q ≠ pid
  | .destroy q _ => ∀ b a, findBinding s.table.root q = some b → b.timer = some a →
      ∀ t ∈ s.timersOf pid, t.addr ≠ a
  | .visit _ alive => alive pid = true
  | _ => True

/-- If the step signals the timer and queues it again, its next release fits its fields. -/
def NextFits (pid : Int32) (s : Pass) : LifeOp → Prop
  | .visit _ _ => ∀ t ∈ s.ahead.head?, isTimerOf pid t = true →
      t.timerCounts < t.timer.count ∨ t.timer.count = 0 → SumFits t.qotExpires t.timer.period
  | _ => True

/-! ## Whole periods -/

/-- The releases up to the one that is queued are a whole number of periods after the first. -/
def ReleasesExact (pid : Int32) (timer : QotTimer) (first : Timepoint) (s : Pass) : Prop :=
  ∀ k : Nat, k < (s.signals pid).length ∨ (k = (s.signals pid).length ∧ s.timersOf pid ≠ []) →
    (release timer first k).value = first.value + k * timer.period.value

theorem release_succ_value {k : Nat}
    (h : (release timer first k).value = first.value + k * timer.period.value)
    (hfits : SumFits (release timer first k) timer.period) :
    (release timer first (k + 1)).value = first.value + (k + 1 : Nat) * timer.period.value := by
  have hexact := (timepointAdd_exact_iff _ _).mpr hfits
  rw [release, Function.iterate_succ_apply', ← release, hexact, h]
  push_cast
  ring

theorem ReleasesExact.of_alone (h : ReleasesExact pid timer first s) (halone : LeftAlone pid s s') :
    ReleasesExact pid timer first s' := by
  intro k hk
  rw [halone.signals] at hk
  refine h k (hk.imp_right fun hk => ⟨hk.1, fun hnil => hk.2 ?_⟩)
  exact List.perm_nil.mp (hnil ▸ halone.timers)

/-- The timer is signalled: one more release is past, and perhaps one more is queued. -/
theorem ReleasesExact.of_own (h : ReleasesExact pid timer first s)
    (hrun : Running pid addr timer first s t) (hothers : others.filter (isTimerOf pid) = [])
    (ht : isTimerOf pid t = true)
    (hfits : t.timerCounts < t.timer.count ∨ t.timer.count = 0 →
      SumFits t.qotExpires t.timer.period)
    (heffect : VisitEffect true s t others s') : ReleasesExact pid timer first s' := by
  have hnow : (release timer first (s.signals pid).length).value
      = first.value + (s.signals pid).length * timer.period.value :=
    h _ (Or.inr ⟨rfl, by rw [hrun.timers]; exact List.cons_ne_nil _ _⟩)
  have hpast : ∀ k : Nat, k < (s.signals pid).length + 1 →
      (release timer first k).value = first.value + k * timer.period.value := by
    intro k hk
    rcases Nat.lt_succ_iff_lt_or_eq.mp hk with hlt | rfl
    · exact h k (Or.inl hlt)
    · exact hnow
  cases heffect with
  | requeued _ _ hcounts _ _ hlog =>
    intro k hk
    rw [(signals_concat ht hlog).2] at hk
    rcases hk with hlt | ⟨rfl, -⟩
    · exact hpast k hlt
    · have hsum := hfits hcounts
      rw [hrun.expires, hrun.sameTimer] at hsum
      exact release_succ_value hnow hsum
  | finished _ _ _ hev _ hlog =>
    intro k hk
    rw [(signals_concat ht hlog).2] at hk
    rcases hk with hlt | ⟨-, hsome⟩
    · exact hpast k hlt
    · -- nothing is queued after the last signal
      exact absurd (by rw [Pass.timersOf, hev, hothers]) hsome
  | orphaned _ hdead _ _ _ => cases hdead
  | kept hblock _ _ _ _ _ _ =>
    rw [((isTimerOf_iff pid).mp ht).1] at hblock
    cases hblock

/-- **One step**, which keeps the whole periods too if the next release fits. -/
theorem Follows.step (h : Follows pid addr timer first s) (hop : Undisturbed pid s op)
    (hstep : lifeStep s op = some s') : Follows pid addr timer first s'
      ∧ (NextFits pid s op → ReleasesExact pid timer first s →
        ReleasesExact pid timer first s') := by
  have hsane := h.sane.step hstep
  have hsame (halone : LeftAlone pid s s') (hbound : StaysBound pid s s') :=
    And.intro (h.of_alone hsane halone hbound) fun (_ : NextFits pid s op)
      (hexact : ReleasesExact pid timer first s) => hexact.of_alone halone
  have hother (halone : LeavesAlone pid s op)
      (hleave : ∀ copied, op = .leave pid copied → copied = false) :=
    hsame (leftAlone_step h.sane halone hstep) (staysBound_step halone hleave hstep)
  cases op with
  | join q msgb alloc => exact hother trivial (by simp)
  | leave q copied =>
    refine hother trivial fun c hc => ?_
    cases hc
    exact hop rfl
  | create q timer env => exact hother hop (by simp)
  | destroy q copied => exact hother hop (by simp)
  | sleep addr q expires => exact hother trivial (by simp)
  | resume addr => exact hother trivial (by simp)
  | visit expired alive =>
    -- the first node ahead decides whose visit it is
    by_cases hown : ∃ t ∈ s.ahead.head?, isTimerOf pid t = true
    · obtain ⟨t, hhead, ht⟩ := hown
      cases lifeStep_effect hstep with
      | nothing _ hroot hev hlog =>
        exact hsame (leftAlone_of_eq hev hlog) (staysBound_of_root hroot)
      | visited hahead hperm heffect =>
        rw [hahead] at hhead
        cases hhead
        rw [((isTimerOf_iff pid).mp ht).2, hop] at heffect
        obtain ⟨hrun, hothers⟩ := h.running hperm ht
        exact ⟨h.of_own hsane hrun hothers ht heffect, fun hfits hexact =>
          hexact.of_own hrun hothers ht (hfits t (by rw [hahead]; rfl) ht) heffect⟩
    · refine hother (fun t ht => ?_) (by simp)
      rw [← Bool.not_eq_true]
      exact fun htimer => hown ⟨t, ht, htimer⟩

end Life

/-! ## From the request on -/

section Created

variable {pid : Int32} {timer : QotTimer} {env : CreateTimerEnv} {s s' : Pass}
  {sleeper : TimelineSleeper}

/-- The process does not ask for a timer. -/
def NotCreatedBy (pid : Int32) : LifeOp → Prop
  | .create q _ _ => q ≠ pid
  | _ => True

/-- The process has no timer, and got no signal. -/
structure NoTimer (pid : Int32) (s : Pass) : Prop where
  sane : Sane s
  timers : s.timersOf pid = []
  signals : s.signals pid = []

theorem NoTimer.step (h : NoTimer pid s) {op : LifeOp} (hop : NotCreatedBy pid op)
    (hstep : lifeStep s op = some s') : NoTimer pid s' := by
  -- with no timer there is none to be destroyed or visited
  have halone : LeavesAlone pid s op := by
    cases op with
    | create q timer env => exact hop
    | destroy q copied =>
      intro b a _ _ t ht
      rw [h.timers] at ht
      cases ht
    | visit expired alive =>
      intro t ht
      cases htimer : isTimerOf pid t with
      | false => rfl
      | true =>
        have hmem : t ∈ s.timersOf pid :=
          List.mem_filter.mpr ⟨List.mem_append_right _ (List.mem_of_head? ht), htimer⟩
        rw [h.timers] at hmem
        cases hmem
    | join q msgb alloc => trivial
    | leave q copied => trivial
    | sleep addr q expires => trivial
    | resume addr => trivial
  obtain ⟨htimers, hsignals⟩ := leftAlone_step h.sane halone hstep
  rw [h.timers] at htimers
  exact ⟨h.sane.step hstep, List.perm_nil.mp htimers, hsignals.trans h.signals⟩

/-- The request succeeds and queues the sleeper. -/
structure Queues (s : Pass) (pid : Int32) (timer : QotTimer) (env : CreateTimerEnv)
    (sleeper : TimelineSleeper) : Prop where
  bound : (findBinding s.table.root pid).isSome
  kzalloc : env.kzalloc = some sleeper.addr
  fresh : sleeper.addr ∉ addrs s.events
  init : qotInitTimerSleeper sleeper.addr pid timer env.currentTimelineTime = some sleeper
  started : env.started = true

/-- The state after the request. -/
theorem Queues.step (h : Queues s pid timer env sleeper)
    (hstep : lifeStep s (.create pid (some timer) env) = some s') :
    s' = ⟨(TimerState.setTimer ⟨s.table, qotTimelineEventAdd s.events sleeper⟩ pid
      (some sleeper.addr)).table, [], qotTimelineEventAdd s.events sleeper, s.log⟩ := by
  obtain ⟨b, hb⟩ := Option.isSome_iff_exists.mp h.bound
  have hcreate : timelineCreateTimer ⟨s.table, s.events⟩ pid (some timer) env
      = some (TimerState.setTimer ⟨s.table, qotTimelineEventAdd s.events sleeper⟩ pid
        (some sleeper.addr)) := by
    simp [timelineCreateTimer, hb, h.kzalloc, h.fresh, h.init, h.started]
  have hcall : (timelineCreateTimer ⟨s.table, s.events⟩ pid (some timer) env).map
      (fun s' => (⟨s'.table, [], s'.events, s.log⟩ : Pass)) = some s' := hstep
  rw [hcreate] at hcall
  exact (Option.some.inj hcall).symm

/-- Afterwards the timer is the only one of the process. -/
theorem Queues.timersOf (h : Queues s pid timer env sleeper) (hnone : s.timersOf pid = [])
    (hstep : lifeStep s (.create pid (some timer) env) = some s') :
    s'.timersOf pid = [sleeper] := by
  obtain ⟨-, hpid, hper⟩ := qotInitTimerSleeper_fields h.init
  have hperm := (eventAdd_perm s.events sleeper).filter (isTimerOf pid)
  rw [List.filter_cons_of_pos ((isTimerOf_iff pid).mpr ⟨hper, hpid⟩), ← Pass.timersOf,
    hnone] at hperm
  rw [h.step hstep]
  exact List.perm_singleton.mp hperm

theorem follows_create (h : NoTimer pid s) (hqueues : Queues s pid timer env sleeper)
    (hcount : 0 ≤ timer.count.toInt) (hstep : lifeStep s (.create pid (some timer) env) = some s') :
    Follows pid sleeper.addr timer sleeper.qotExpires s'
      ∧ ReleasesExact pid timer sleeper.qotExpires s' := by
  obtain ⟨b, hb⟩ := Option.isSome_iff_exists.mp hqueues.bound
  obtain ⟨hbmem, hbpid⟩ := findBinding_mem hb
  obtain ⟨htimer, hcounts⟩ := qotInitTimerSleeper_timer hqueues.init
  have hsignals : s'.signals pid = [] := by
    rw [hqueues.step hstep]
    exact h.signals
  refine ⟨⟨h.sane.step hstep, ?_, by simp [hsignals],
    Or.inl ⟨sleeper, hqueues.timersOf h.timers hstep, rfl, htimer, ?_, ?_⟩⟩, ?_⟩
  · refine ⟨{ b with timer := some sleeper.addr }, ?_, hbpid⟩
    rw [hqueues.step hstep]
    exact mem_setTimer.mpr ⟨b, hbmem, if_pos hbpid⟩
  · rw [hsignals]
    rfl
  · intro hne
    rw [hsignals, hcounts]
    have hpos : timer.count.toInt ≠ 0 := fun hzero => hne (Int32.toInt_inj.mp hzero)
    refine ⟨rfl, ?_⟩
    show (0 : Int) < timer.count.toInt
    omega
  · intro k hk
    rw [hsignals] at hk
    obtain rfl : k = 0 := by
      rcases hk with hlt | ⟨heq, -⟩
      · exact absurd hlt (Nat.not_lt_zero k)
      · exact heq
    show sleeper.qotExpires.value = _
    simp

end Created

/-- **Periodic timers fire as requested**, in every state of every run from the request on in which
the process lives, stays bound and creates no other timer. The signals are counted and follow one
another by additions; they come at whole periods if the next release fits its fields whenever the
timer is queued again. -/
theorem timer_fires (pid : Int32) (before after : List LifeOp) (timer : QotTimer)
    (env : CreateTimerEnv) (sleeper : TimelineSleeper) (s₀ s₁ : Pass)
    (hbefore : Runs.exec lifeStep (Pass.start BindingTable.empty []) before = some s₀)
    (honly : Runs.AllSteps lifeStep (fun _ op => NotCreatedBy pid op)
      (Pass.start BindingTable.empty []) before)
    (hqueues : Queues s₀ pid timer env sleeper) (hcount : 0 ≤ timer.count.toInt)
    (hcreate : lifeStep s₀ (.create pid (some timer) env) = some s₁)
    (hafter : Runs.AllSteps lifeStep (Undisturbed pid) s₁ after) :
    Runs.AllStates lifeStep (FiresCounted pid sleeper.addr timer sleeper.qotExpires) s₁ after
      ∧ (Runs.AllSteps lifeStep (NextFits pid) s₁ after →
        Runs.AllStates lifeStep (FiresAsRequested pid sleeper.addr timer sleeper.qotExpires)
          s₁ after) := by
  have hstart : NoTimer pid (Pass.start BindingTable.empty []) :=
    ⟨⟨List.nodup_nil, List.nodup_nil⟩, rfl, rfl⟩
  have hnone : NoTimer pid s₀ :=
    (Runs.allStates_of_inv (J := NoTimer pid) (fun _ h => h)
      (fun _ _ _ h hop hstep => h.step hop hstep) hstart honly).exec hbefore
  obtain ⟨hfollows, hexact⟩ := follows_create hnone hqueues hcount hcreate
  constructor
  · exact Runs.allStates_of_inv (J := Follows pid sleeper.addr timer sleeper.qotExpires)
      (fun _ h => h.firesCounted) (fun _ _ _ h hop hstep => (h.step hop hstep).1) hfollows hafter
  · -- whole periods are an invariant only together with the number of the release that is queued
    intro hfits
    apply Runs.allStates_of_inv
      (J := fun s => Follows pid sleeper.addr timer sleeper.qotExpires s
        ∧ ReleasesExact pid timer sleeper.qotExpires s) ?_ ?_ ⟨hfollows, hexact⟩ (hafter.and hfits)
    · intro s ⟨hfollows, hexact⟩
      refine ⟨hfollows.firesCounted, fun k t ht => ?_⟩
      rw [hfollows.releases k t ht]
      exact hexact k (Or.inl (List.getElem?_eq_some_iff.mp ht).1)
    · intro s op s' ⟨hfollows, hexact⟩ hop hstep
      obtain ⟨hfollows', hexact'⟩ := hfollows.step hop.1 hstep
      exact ⟨hfollows', hexact' hop.2 hexact⟩

/-- Process 7 joins. -/
def joinSeven : List LifeOp := [.join 7 (some ⟨⟨⟨0, 0⟩, ⟨⟨0, 0⟩, ⟨0, 0⟩⟩⟩, 0⟩) true]

/-- An iteration at which everything has expired, and every process lives. -/
def visitAny : LifeOp := .visit (fun _ => true) fun _ => true

/-- At one second it asks for two signals, the first at ten seconds. -/
def twiceFrom (period : Timelength) : QotTimer := ⟨⟨10, 0⟩, period, 2⟩

def twiceEnv : CreateTimerEnv := ⟨some 1, ⟨1, 0⟩, true⟩

/-- The timer at its release. -/
def twiceSleeper (period : Timelength) (expires : Timepoint) (timerCounts : Int32) :
    TimelineSleeper where
  addr := 1
  task := true
  pid := 7
  sleeperActive := true
  qotExpires := expires
  periodicTimerFlag := true
  timer := twiceFrom period
  timerCounts := timerCounts

/-- The timeline of the process with this timer: the nodes passed, those ahead, the log. -/
def twicePass (timer : Option Nat) (done ahead log : List TimelineSleeper) : Pass :=
  ⟨{ boundTable with root := modifyBinding boundTable.root 7 fun b => { b with timer := timer } },
    done, ahead, log⟩

/-- A pass with one signal, its end, and another pass. -/
def twoPasses : List LifeOp := [visitAny, visitAny, visitAny]

theorem twoPasses_undisturbed (s : Pass) : Runs.AllSteps lifeStep (Undisturbed 7) s twoPasses :=
  ⟨rfl, fun _ _ => ⟨rfl, fun _ _ => ⟨rfl, fun _ _ => trivial⟩⟩⟩

/-- With a period of a second both signals come as requested. -/
theorem timer_fires_seconds :
    Runs.AllStates lifeStep (FiresAsRequested 7 1 (twiceFrom ⟨1, 0⟩) ⟨10, 0⟩)
      (twicePass (some 1) [] [twiceSleeper ⟨1, 0⟩ ⟨10, 0⟩ 1] []) twoPasses := by
  refine (timer_fires 7 joinSeven twoPasses (twiceFrom ⟨1, 0⟩) twiceEnv
    (twiceSleeper ⟨1, 0⟩ ⟨10, 0⟩ 1) (twicePass none [] [] []) _ (by decide)
    ⟨trivial, fun _ _ => trivial⟩ ⟨by decide, rfl, by decide, by decide, rfl⟩
    (by decide) (by decide)
    (twoPasses_undisturbed _)).2 ?_
  apply Runs.allSteps_cons (twicePass (some 1) [twiceSleeper ⟨1, 0⟩ ⟨11, 0⟩ 2] []
    [twiceSleeper ⟨1, 0⟩ ⟨10, 0⟩ 1]) (by decide)
  · intro t ht _ _
    cases ht
    decide
  · apply Runs.allSteps_cons (twicePass (some 1) [] [twiceSleeper ⟨1, 0⟩ ⟨11, 0⟩ 2]
      [twiceSleeper ⟨1, 0⟩ ⟨10, 0⟩ 1]) (by decide)
    · intro t ht
      cases ht
    · refine ⟨?_, fun _ _ => trivial⟩
      intro t ht _ _
      cases ht
      decide

/-- A period of `2 ^ 63` seconds wraps: the second signal is for a time before the first. -/
theorem timer_fires_early :
    Runs.AllSteps lifeStep (Undisturbed 7)
        (twicePass (some 1) [] [twiceSleeper ⟨9223372036854775808, 0⟩ ⟨10, 0⟩ 1] []) twoPasses
      ∧ ∃ s, Runs.exec lifeStep (Pass.start BindingTable.empty [])
          (joinSeven ++ .create 7 (some (twiceFrom ⟨9223372036854775808, 0⟩)) twiceEnv :: twoPasses)
            = some s
        ∧ (s.signals 7).map (·.qotExpires) = [⟨10, 0⟩, ⟨-9223372036854775798, 0⟩]
        ∧ ¬ FiresAsRequested 7 1 (twiceFrom ⟨9223372036854775808, 0⟩) ⟨10, 0⟩ s := by
  refine ⟨twoPasses_undisturbed _, twicePass none [] []
    [twiceSleeper ⟨9223372036854775808, 0⟩ ⟨10, 0⟩ 1,
      twiceSleeper ⟨9223372036854775808, 0⟩ ⟨-9223372036854775798, 0⟩ 2], by decide, by decide, ?_⟩
  intro h
  have hsecond := h.exact 1 _ rfl
  revert hsecond
  decide

end Qot
