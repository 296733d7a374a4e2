import QotStack.Lib.Runs
import QotStack.Binding.Table
import QotStack.Scheduler.Sleeper

/-!
# QotStack — who owns a periodic timer

A binding may hold one periodic timer. `TIMELINE_CREATE_TIMER` queues a sleeper and stores its
address in the binding, `TIMELINE_DESTROY_TIMER` takes the sleeper off and frees it, an expiry that
exhausts the timer's count frees it too and clears the binding, and leaving the timeline frees the
binding. `Owned` is the correspondence these four are meant to keep: a binding's timer is queued,
and a queued timer belongs to the one binding of its process.

Only the expiry keeps it by itself. Destroying does not clear the binding, leaving does not take
the timer off, and creating overwrites the address of a timer that is still queued:
`timer_ownership_iff` says that these three omissions are the only ways to lose it.
-/

namespace Qot

structure TimerState where
  table : BindingTable
  events : List TimelineSleeper
  deriving DecidableEq, Repr

def TimerState.empty : TimerState := ⟨BindingTable.empty, []⟩

/-! ## The calls -/

/-- What a create depends on besides its argument: the address `kzalloc` returns, the current
timeline time, and whether `qot_sleeper_start_expires` reports success. -/
structure CreateTimerEnv where
  kzalloc : Option Nat
  currentTimelineTime : Timepoint
  started : Bool
  deriving DecidableEq, Repr

def TimerState.setTimer (s : TimerState) (pid : Int32) (timer : Option Nat) : TimerState :=
  { s with
    table := { s.table with
      root := modifyBinding s.table.root pid fun b => { b with timer := timer } } }

/-- Forget the timer of a process, if it still has a binding (`qot_remove_binding_timer`). -/
def qotRemoveBindingTimer (s : TimerState) (pid : Int32) : TimerState := s.setTimer pid none

/-- `TIMELINE_CREATE_TIMER` with `qot_timer_create`. An error return leaves the state as it was; a
timer that fails to start has been queued and is taken off again. The allocator only hands out
memory that is free. -/
def timelineCreateTimer (s : TimerState) (pid : Int32) (timer : Option QotTimer)
    (env : CreateTimerEnv) : Option TimerState :=
  match timer, findBinding s.table.root pid, env.kzalloc with
  | some timer, some _, some addr =>
    -- the allocator hands out no address in use
    if addr ∈ addrs s.events then some s
    else
      (qotInitTimerSleeper addr pid timer env.currentTimelineTime).map fun sleeper =>
        if env.started then
          { s with events := qotTimelineEventAdd s.events sleeper }.setTimer pid (some addr)
        else { s with events := eventErase (qotTimelineEventAdd s.events sleeper) addr }
  | _, _, _ => some s

/-- `TIMELINE_DESTROY_TIMER` with `qot_timer_destroy`: the sleeper is taken off the tree and freed.
Through a stale address that is a fault. -/
def timelineDestroyTimer (s : TimerState) (pid : Int32) (copied : Bool) : Option TimerState :=
  if copied then
    match findBinding s.table.root pid with
    | none => some s
    | some b =>
      match b.timer with
      | none => some s
      | some addr =>
        -- the binding keeps the address of what is freed
        if addr ∈ addrs s.events then some { s with events := eventErase s.events addr } else none
  else some s

def expireSleeper (s : TimerState) (addr : Nat) (alive : Bool) : TimerState :=
  match s.events.find? fun t => t.addr = addr with
  | none => s
  | some sleeper =>
    match qotSleeperWakeup alive sleeper with
    | .requeued t => { s with events := qotTimelineEventAdd (eventErase s.events addr) t }
    | .released => qotRemoveBindingTimer { s with events := eventErase s.events addr } sleeper.pid
    | .kept t => { s with events := s.events.map fun u => if u.addr = addr then t else u }

inductive TimerOp where
  | join (pid : Int32) (msgb : Option QotBinding) (alloc : Bool)
  | leave (pid : Int32) (copied : Bool)
  | create (pid : Int32) (timer : Option QotTimer) (env : CreateTimerEnv)
  | destroy (pid : Int32) (copied : Bool)
  | expire (addr : Nat) (alive : Bool)
  deriving DecidableEq, Repr

def timerStep (s : TimerState) : TimerOp → Option TimerState
  | .join pid msgb alloc =>
    some { s with table := (timelineBindJoin s.table pid msgb alloc).getD s.table }
  | .leave pid copied =>
    some { s with table := (timelineBindLeave s.table pid copied).getD s.table }
  | .create pid timer env => timelineCreateTimer s pid timer env
  | .destroy pid copied => timelineDestroyTimer s pid copied
  | .expire addr alive => some (expireSleeper s addr alive)

/-! ## Ownership -/

/-- **Timer ownership.** A binding's timer is a queued periodic sleeper; a queued periodic sleeper
is the timer of exactly one binding, that of the process which created it. -/
structure Owned (s : TimerState) : Prop where
  queued : ∀ b ∈ s.table.root, ∀ a, b.timer = some a →
    ∃ t ∈ s.events, t.addr = a ∧ t.periodicTimerFlag = true
  owner : ∀ t ∈ s.events, t.periodicTimerFlag = true →
    ∃ b ∈ s.table.root, b.pid = t.pid ∧ b.timer = some t.addr
      ∧ ∀ b' ∈ s.table.root, b'.timer = some t.addr → b' = b

/-- The condition on a step. Leaving and destroying need a binding without a timer; so does a create
that succeeds. -/
def TimerFree (s : TimerState) : TimerOp → Prop
  | .join _ _ _ => True
  | .leave pid copied =>
    copied = true → ∀ b, findBinding s.table.root pid = some b → b.timer = none
  | .create pid timer env =>
    ∀ b, findBinding s.table.root pid = some b → ∀ q, timer = some q → ∀ a, env.kzalloc = some a →
      a ∉ addrs s.events → (qotInitTimerSleeper a pid q env.currentTimelineTime).isSome →
      env.started = true → b.timer = none
  | .destroy pid copied =>
    copied = true → ∀ b, findBinding s.table.root pid = some b → b.timer = none
  | .expire _ _ => True

/-- The inductive form: one binding per process, one node per address, and a two-way link through
the process id. -/
structure TimerInv (s : TimerState) : Prop where
  pidsNodup : (pids s.table.root).Nodup
  addrsNodup : (addrs s.events).Nodup
  queued : ∀ b ∈ s.table.root, ∀ a, b.timer = some a →
    ∃ t ∈ s.events, t.addr = a ∧ t.periodicTimerFlag = true ∧ t.pid = b.pid
  owner : ∀ t ∈ s.events, t.periodicTimerFlag = true →
    ∃ b ∈ s.table.root, b.pid = t.pid ∧ b.timer = some t.addr

variable {s s' : TimerState} {b' : BindingImpl} {t : TimelineSleeper} {pid : Int32} {copied : Bool}

namespace TimerInv
variable (h : TimerInv s)
include h

theorem eq_of_pid {b : BindingImpl} (hb : b ∈ s.table.root)
    (hb' : b' ∈ s.table.root) (hpid : b.pid = b'.pid) : b = b' :=
  List.inj_on_of_nodup_map h.pidsNodup hb hb' hpid

/-- Only the binding of its process can name a queued timer. -/
theorem unique (ht : t ∈ s.events) {b : BindingImpl}
    (hb : b ∈ s.table.root) (hpid : b.pid = t.pid) (hb' : b' ∈ s.table.root)
    (htimer : b'.timer = some t.addr) : b' = b := by
  obtain ⟨u, hu, hua, -, hup⟩ := h.queued b' hb' t.addr htimer
  have hut : u = t := eq_of_addr_eq h.addrsNodup hu ht hua
  exact h.eq_of_pid hb' hb (by rw [← hup, hut, hpid])

theorem owned : Owned s where
  queued b hb a ha := by
    obtain ⟨t, ht, hta, htp, -⟩ := h.queued b hb a ha
    exact ⟨t, ht, hta, htp⟩
  owner t ht htp := by
    obtain ⟨b, hb, hpid, htimer⟩ := h.owner t ht htp
    exact ⟨b, hb, hpid, htimer, fun b' hb' => h.unique ht hb hpid hb'⟩

/-! ## What the operations keep -/

theorem join (pid : Int32) (msgb : Option QotBinding) (alloc : Bool) :
    TimerInv { s with table := (timelineBindJoin s.table pid msgb alloc).getD s.table } := by
  rcases timelineBindJoin_root s.table pid msgb alloc with hsame | ⟨hfresh, info, hperm⟩
  · exact ⟨by rw [hsame]; exact h.pidsNodup, h.addrsNodup, by rw [hsame]; exact h.queued,
      by rw [hsame]; exact h.owner⟩
  · refine ⟨?_, h.addrsNodup, ?_, ?_⟩
    · refine (hperm.map (·.pid)).nodup_iff.mpr ?_
      exact List.nodup_cons.mpr ⟨hfresh, h.pidsNodup⟩
    · -- the new binding has no timer
      intro b hb a ha
      rcases List.mem_cons.mp (hperm.mem_iff.mp hb) with rfl | hb
      · simp at ha
      · exact h.queued b hb a ha
    · intro t ht htp
      obtain ⟨b, hb, hbt⟩ := h.owner t ht htp
      exact ⟨b, hperm.mem_iff.mpr (List.mem_cons_of_mem _ hb), hbt⟩

theorem leave (pid : Int32) (copied : Bool) (hfree : TimerFree s (.leave pid copied)) :
    TimerInv { s with table := (timelineBindLeave s.table pid copied).getD s.table } := by
  rcases timelineBindLeave_root s.table pid copied with hsame | ⟨hcopied, ⟨b₀, hfind⟩, hroot⟩
  · exact ⟨by rw [hsame]; exact h.pidsNodup, h.addrsNodup, by rw [hsame]; exact h.queued,
      by rw [hsame]; exact h.owner⟩
  · have hnone : b₀.timer = none := hfree hcopied b₀ hfind
    obtain ⟨hb₀, hpid₀⟩ := findBinding_mem hfind
    refine ⟨?_, h.addrsNodup, ?_, ?_⟩
    · rw [hroot, pids_filter]
      exact h.pidsNodup.filter _
    · intro b hb a ha
      rw [hroot] at hb
      exact h.queued b (List.mem_of_mem_filter hb) a ha
    · intro t ht htp
      obtain ⟨b, hb, hpid, htimer⟩ := h.owner t ht htp
      refine ⟨b, ?_, hpid, htimer⟩
      -- the binding that goes has no timer, so it is not this one
      have hne : b.pid ≠ pid := by
        intro he
        rw [h.eq_of_pid hb hb₀ (he.trans hpid₀.symm), hnone] at htimer
        simp at htimer
      rw [hroot]
      exact List.mem_filter.mpr ⟨hb, by simpa using hne⟩

end TimerInv

theorem setTimer_pids (s : TimerState) (pid : Int32) (timer : Option Nat) :
    pids (s.setTimer pid timer).table.root = pids s.table.root :=
  pids_modifyBinding fun _ => rfl

theorem mem_setTimer {timer : Option Nat} :
    b' ∈ (s.setTimer pid timer).table.root ↔
      ∃ b ∈ s.table.root, (if b.pid = pid then { b with timer := timer } else b) = b' :=
  mem_modifyBinding

theorem timelineCreateTimer_cases {timer : Option QotTimer} {env : CreateTimerEnv}
    (h : timelineCreateTimer s pid timer env = some s') :
    s' = s ∨ ∃ q a t b, timer = some q ∧ env.kzalloc = some a ∧ a ∉ addrs s.events
      ∧ qotInitTimerSleeper a pid q env.currentTimelineTime = some t
      ∧ findBinding s.table.root pid = some b ∧ env.started = true
      ∧ s' = { s with events := qotTimelineEventAdd s.events t }.setTimer pid (some a) := by
  revert h
  fun_cases timelineCreateTimer s pid timer env with
  | case2 q b a ha hb hfresh =>
    intro h
    obtain ⟨t, ht, rfl⟩ := Option.map_eq_some_iff.mp h
    split
    · next hstarted => exact Or.inr ⟨q, a, t, b, rfl, ha, hfresh, ht, hb, hstarted, rfl⟩
    · -- a timer that cannot be started goes off the tree again
      left
      obtain ⟨rfl, -, -⟩ := qotInitTimerSleeper_fields ht
      rw [eventErase_eventAdd hfresh]
  | _ =>
    rintro ⟨⟩
    exact Or.inl rfl

namespace TimerInv
variable (h : TimerInv s)
include h

theorem create {a : Nat} {q : QotTimer} {now : Timepoint}
    {b₀ : BindingImpl} (hfresh : a ∉ addrs s.events) (ht : qotInitTimerSleeper a pid q now = some t)
    (hfind : findBinding s.table.root pid = some b₀) (hnone : b₀.timer = none) :
    TimerInv ({ s with events := qotTimelineEventAdd s.events t }.setTimer pid (some a)) := by
  obtain ⟨haddr, hpid, hper⟩ := qotInitTimerSleeper_fields ht
  obtain ⟨hb₀, hpid₀⟩ := findBinding_mem hfind
  refine ⟨?_, ?_, ?_, ?_⟩
  · rw [setTimer_pids]
    exact h.pidsNodup
  · show (addrs (qotTimelineEventAdd s.events t)).Nodup
    refine (addrs_eventAdd_perm s.events t).nodup_iff.mpr ?_
    exact List.nodup_cons.mpr ⟨haddr ▸ hfresh, h.addrsNodup⟩
  · intro b' hb' c hc
    obtain ⟨b, hb, hbb'⟩ := mem_setTimer.mp hb'
    by_cases he : b.pid = pid
    · -- the creating process: its timer is the new node
      rw [if_pos he] at hbb'
      subst hbb'
      have hca : c = a := by simpa using hc.symm
      exact ⟨t, mem_qotTimelineEventAdd.mpr (Or.inl rfl), haddr.trans hca.symm, hper,
        hpid.trans he.symm⟩
    · rw [if_neg he] at hbb'
      subst hbb'
      obtain ⟨u, hu, hurest⟩ := h.queued b hb c hc
      exact ⟨u, mem_qotTimelineEventAdd.mpr (Or.inr hu), hurest⟩
  · intro u hu hup
    rcases mem_qotTimelineEventAdd.mp hu with rfl | hu
    · exact ⟨{ b₀ with timer := some a }, mem_setTimer.mpr ⟨b₀, hb₀, by rw [if_pos hpid₀]⟩,
        hpid₀.trans hpid.symm, by rw [haddr]⟩
    · obtain ⟨b, hb, hbp, hbt⟩ := h.owner u hu hup
      -- the binding that gets the new timer had none, so the old owner is another
      have hne : b.pid ≠ pid := by
        intro he
        rw [h.eq_of_pid hb hb₀ (he.trans hpid₀.symm), hnone] at hbt
        simp at hbt
      exact ⟨b, mem_setTimer.mpr ⟨b, hb, by rw [if_neg hne]⟩, hbp, hbt⟩

theorem requeue (ht : t ∈ s.events) (hper : t.periodicTimerFlag = true) :
    TimerInv
      { s with events := qotTimelineEventAdd (eventErase s.events t.addr) t.nextRelease } := by
  refine ⟨h.pidsNodup, ?_, ?_, ?_⟩
  · refine (addrs_eventAdd_perm _ _).nodup_iff.mpr (List.nodup_cons.mpr ⟨?_, ?_⟩)
    · intro hmem
      obtain ⟨u, hu, hua⟩ := List.mem_map.mp hmem
      exact (mem_eventErase.mp hu).2 hua
    · exact addrs_nodup_eventErase h.addrsNodup t.addr
  · intro b hb a ha
    obtain ⟨u, hu, hua, hup, hupid⟩ := h.queued b hb a ha
    by_cases he : u.addr = t.addr
    · -- the node itself: its next release carries the same address and process
      have hut : u = t := eq_of_addr_eq h.addrsNodup hu ht he
      subst hut
      exact ⟨u.nextRelease, mem_qotTimelineEventAdd.mpr (Or.inl rfl), hua, hup, hupid⟩
    · exact ⟨u, mem_qotTimelineEventAdd.mpr (Or.inr (mem_eventErase.mpr ⟨hu, he⟩)), hua, hup, hupid⟩
  · intro u hu hup
    rcases mem_qotTimelineEventAdd.mp hu with rfl | hu
    · exact h.owner t ht hper
    · exact h.owner u (mem_eventErase.mp hu).1 hup

theorem release (ht : t ∈ s.events) (hper : t.periodicTimerFlag = true) :
    TimerInv (qotRemoveBindingTimer { s with events := eventErase s.events t.addr } t.pid) := by
  obtain ⟨b₀, hb₀, hpid₀, htimer₀⟩ := h.owner t ht hper
  refine ⟨?_, addrs_nodup_eventErase h.addrsNodup t.addr, ?_, ?_⟩
  · rw [qotRemoveBindingTimer, setTimer_pids]
    exact h.pidsNodup
  · intro b' hb' a ha
    obtain ⟨b, hb, hbb'⟩ := mem_setTimer.mp hb'
    by_cases he : b.pid = t.pid
    · rw [if_pos he] at hbb'
      subst hbb'
      simp at ha
    · rw [if_neg he] at hbb'
      subst hbb'
      obtain ⟨u, hu, hua, hup, hupid⟩ := h.queued b hb a ha
      have hne : u.addr ≠ t.addr := by
        intro hadr
        rw [eq_of_addr_eq h.addrsNodup hu ht hadr] at hupid
        exact he hupid.symm
      exact ⟨u, mem_eventErase.mpr ⟨hu, hne⟩, hua, hup, hupid⟩
  · intro u hu hup
    obtain ⟨hu, hne⟩ := mem_eventErase.mp hu
    obtain ⟨b, hb, hbp, hbt⟩ := h.owner u hu hup
    -- the binding that is cleared names the released node, not this one
    have hother : b.pid ≠ t.pid := by
      intro he
      rw [h.eq_of_pid hb hb₀ (he.trans hpid₀.symm), htimer₀, Option.some.injEq] at hbt
      exact hne hbt.symm
    exact ⟨b, mem_setTimer.mpr ⟨b, hb, by rw [if_neg hother]⟩, hbp, hbt⟩

theorem keep {t' : TimelineSleeper} (ht : t ∈ s.events)
    (hper : t.periodicTimerFlag = false) (haddr : t'.addr = t.addr)
    (hper' : t'.periodicTimerFlag = false) :
    TimerInv { s with events := s.events.map fun u => if u.addr = t.addr then t' else u } := by
  have haddrs : addrs (s.events.map fun u => if u.addr = t.addr then t' else u)
      = addrs s.events := by
    simp only [addrs, List.map_map]
    refine List.map_congr_left fun u _ => ?_
    by_cases he : u.addr = t.addr <;> simp [he, haddr]
  refine ⟨h.pidsNodup, haddrs ▸ h.addrsNodup, ?_, ?_⟩
  · intro b hb a ha
    obtain ⟨u, hu, hua, hup, hupid⟩ := h.queued b hb a ha
    -- a binding's timer is periodic, the node that changes is not
    have hne : u.addr ≠ t.addr := by
      intro he
      rw [eq_of_addr_eq h.addrsNodup hu ht he, hper] at hup
      simp at hup
    exact ⟨u, List.mem_map.mpr ⟨u, hu, by rw [if_neg hne]⟩, hua, hup, hupid⟩
  · intro u' hu' hup
    obtain ⟨u, hu, huu'⟩ := List.mem_map.mp hu'
    by_cases he : u.addr = t.addr
    · rw [if_pos he] at huu'
      subst huu'
      simp [hper'] at hup
    · rw [if_neg he] at huu'
      subst huu'
      exact h.owner u hu hup

/-- Expiries keep the correspondence without any condition. -/
theorem expire (addr : Nat) (alive : Bool) : TimerInv (expireSleeper s addr alive) := by
  unfold expireSleeper
  cases hfind : s.events.find? fun t => t.addr = addr with
  | none => exact h
  | some t =>
    have ht : t ∈ s.events := List.mem_of_find?_eq_some hfind
    have haddr : t.addr = addr := by simpa using List.find?_some hfind
    subst haddr
    simp only
    have hwakes := wakes_qotSleeperWakeup alive t
    generalize qotSleeperWakeup alive t = o at hwakes ⊢
    cases hwakes with
    | requeued hper => exact h.requeue ht hper
    | released hper => exact h.release ht hper
    | woken hper => exact h.keep ht hper rfl hper
    | passed hper => exact h.keep ht hper rfl hper

end TimerInv

/-- Destroying changes nothing, or takes the node off that the binding names. -/
theorem timelineDestroyTimer_cases (h : timelineDestroyTimer s pid copied = some s') :
    s' = s ∨ ∃ b a, copied = true ∧ findBinding s.table.root pid = some b ∧ b.timer = some a
      ∧ s' = { s with events := eventErase s.events a } := by
  revert h
  fun_cases timelineDestroyTimer s pid copied with
  | case3 hcopied b hfind a htimer =>
    rintro ⟨⟩
    exact Or.inr ⟨b, a, hcopied, hfind, htimer, rfl⟩
  | case4 => exact nofun
  | _ =>
    rintro ⟨⟩
    exact Or.inl rfl

theorem timelineDestroyTimer_of_free (hfree : TimerFree s (.destroy pid copied))
    (hs' : timelineDestroyTimer s pid copied = some s') : s' = s := by
  rcases timelineDestroyTimer_cases hs' with hsame | ⟨b, a, hcopied, hfind, htimer, -⟩
  · exact hsame
  · rw [hfree hcopied b hfind] at htimer
    cases htimer

section
variable (h : TimerInv s)
include h

/-- **One step** that meets the condition keeps the correspondence. -/
theorem timerInv_step {op : TimerOp} (hfree : TimerFree s op)
    (hstep : timerStep s op = some s') : TimerInv s' := by
  cases op with
  | join pid msgb alloc =>
    cases hstep
    exact h.join pid msgb alloc
  | leave pid copied =>
    cases hstep
    exact h.leave pid copied hfree
  | create pid timer env =>
    rcases timelineCreateTimer_cases hstep with
      rfl | ⟨q, a, t, b, htimer, haddr, hfresh, ht, hfind, hstarted, rfl⟩
    · exact h
    · have hsome : (qotInitTimerSleeper a pid q env.currentTimelineTime).isSome := by rw [ht]; rfl
      exact h.create hfresh ht hfind (hfree b hfind q htimer a haddr hfresh hsome hstarted)
  | destroy pid copied =>
    rw [timelineDestroyTimer_of_free hfree hstep]
    exact h
  | expire addr alive =>
    cases hstep
    exact h.expire addr alive

/-! ## The condition is exact -/

/-- Leaving with a timer orphans it. -/
theorem TimerInv.free_of_leave
    (howned : Owned { s with table := (timelineBindLeave s.table pid copied).getD s.table }) :
    TimerFree s (.leave pid copied) := by
  intro hcopied b hfind
  by_contra hsome
  obtain ⟨a, ha⟩ := Option.ne_none_iff_exists'.mp hsome
  obtain ⟨hb, hpid⟩ := findBinding_mem hfind
  obtain ⟨t, ht, -, htp, htpid⟩ := h.queued b hb a ha
  obtain ⟨b', hb', hpid', -⟩ := howned.owner t ht htp
  have hroot : ((timelineBindLeave s.table pid copied).getD s.table).root
      = s.table.root.filter fun b => b.pid ≠ pid := by
    simp [timelineBindLeave, hcopied, hfind, qotBindingDel]
  rw [hroot] at hb'
  have hne : b'.pid ≠ pid := by simpa using (List.mem_filter.mp hb').2
  exact hne (hpid'.trans (htpid.trans hpid))

/-- Destroying leaves the binding with a stale address. -/
theorem TimerInv.free_of_destroy
    (howned : ∀ s', timelineDestroyTimer s pid copied = some s' → Owned s') :
    TimerFree s (.destroy pid copied) := by
  intro hcopied b hfind
  by_contra hsome
  obtain ⟨a, ha⟩ := Option.ne_none_iff_exists'.mp hsome
  obtain ⟨hb, -⟩ := findBinding_mem hfind
  obtain ⟨t, ht, hta, -, -⟩ := h.queued b hb a ha
  have hmem : a ∈ addrs s.events := hta ▸ List.mem_map_of_mem ht
  have hafter := howned { s with events := eventErase s.events a }
    (by simp [timelineDestroyTimer, hcopied, hfind, ha, hmem])
  obtain ⟨u, hu, hua, -⟩ := hafter.queued b hb a ha
  exact (mem_eventErase.mp hu).2 hua

/-- Creating over a timer orphans it. -/
theorem TimerInv.free_of_create {timer : Option QotTimer} {env : CreateTimerEnv}
    (howned : ∀ s', timelineCreateTimer s pid timer env = some s' → Owned s') :
    TimerFree s (.create pid timer env) := by
  intro b hfind q htimer a haddr hfresh hinit hstarted
  by_contra hsome
  obtain ⟨c, hc⟩ := Option.ne_none_iff_exists'.mp hsome
  obtain ⟨hb, hpid⟩ := findBinding_mem hfind
  obtain ⟨u, hu, hua, hup, hupid⟩ := h.queued b hb c hc
  obtain ⟨t, ht⟩ := Option.isSome_iff_exists.mp hinit
  have hafter := howned
    ({ s with events := qotTimelineEventAdd s.events t }.setTimer pid (some a))
    (by simp [timelineCreateTimer, htimer, hfind, haddr, hfresh, ht, hstarted])
  obtain ⟨b', hb', hbp, hbt, -⟩ := hafter.owner u (mem_qotTimelineEventAdd.mpr (Or.inr hu)) hup
  obtain ⟨b₁, hb₁, hbb'⟩ := mem_setTimer.mp hb'
  by_cases he : b₁.pid = pid
  · -- the process now names the new node, whose address is not that of the old one
    rw [if_pos he] at hbb'
    subst hbb'
    have hau : a = u.addr := by simpa using hbt
    exact hfresh (hau ▸ List.mem_map_of_mem hu)
  · rw [if_neg he] at hbb'
    subst hbb'
    exact he (hbp.trans (hupid.trans hpid))

theorem timerFree_of_owned {op : TimerOp}
    (howned : ∀ s', timerStep s op = some s' → Owned s') : TimerFree s op := by
  cases op with
  | join pid msgb alloc => trivial
  | leave pid copied => exact h.free_of_leave (howned _ rfl)
  | create pid timer env => exact h.free_of_create howned
  | destroy pid copied => exact h.free_of_destroy howned
  | expire addr alive => trivial

end

theorem timerInv_empty : TimerInv TimerState.empty :=
  ⟨List.nodup_nil, List.nodup_nil, by simp [TimerState.empty, BindingTable.empty],
    by simp [TimerState.empty]⟩

/-- **Timer ownership holds along a run exactly when** no process leaves or destroys while its
binding has a timer, and none creates a second one. -/
theorem timer_ownership_iff (ops : List TimerOp) :
    Runs.AllStates timerStep Owned TimerState.empty ops
      ↔ Runs.AllSteps timerStep TimerFree TimerState.empty ops :=
  Runs.allStates_iff_allSteps (fun _ h => h.owned) (fun _ _ _ h => timerInv_step h)
    (fun _ _ h => timerFree_of_owned h) timerInv_empty

def destroyOps : List TimerOp :=
  [.join 1 (some ⟨⟨⟨1, 0⟩, ⟨⟨1, 0⟩, ⟨1, 0⟩⟩⟩, 0⟩) true,
    .create 1 (some ⟨⟨10, 0⟩, ⟨1, 0⟩, 0⟩) ⟨some 7, ⟨0, 0⟩, true⟩,
    .destroy 1 true]

/-- **A destroyed timer is still named.** The binding keeps the address of the freed sleeper; the
next destroy goes through it. -/
theorem timer_ownership_lost :
    ¬ Runs.AllStates timerStep Owned TimerState.empty destroyOps
      ∧ Runs.exec timerStep TimerState.empty (destroyOps ++ [.destroy 1 true]) = none := by
  refine ⟨fun h => ?_, by decide⟩
  have howned := h.exec rfl
  obtain ⟨t, ht, -⟩ := howned.queued ⟨⟨⟨⟨1, 0⟩, ⟨⟨1, 0⟩, ⟨1, 0⟩⟩⟩, 1⟩, 1, some 7⟩ (by decide) 7 rfl
  have hnone : ∀ t : TimelineSleeper, t ∉ eventErase (qotTimelineEventAdd []
      ⟨7, true, 1, true, ⟨10, 0⟩, true, ⟨⟨10, 0⟩, ⟨1, 0⟩, 0⟩, 1⟩) 7 := by decide
  exact hnone t ht

/-- The bindings after process 7 has joined. -/
def boundTable : BindingTable :=
  ⟨[⟨⟨⟨⟨0, 0⟩, ⟨⟨0, 0⟩, ⟨0, 0⟩⟩⟩, 7⟩, 7, none⟩], [7], [7], [7]⟩

end Qot
