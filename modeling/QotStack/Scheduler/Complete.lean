import QotStack.Scheduler.Ends

/-!
# QotStack — what a wake-up pass leaves behind

A pass is complete if it ends, has signalled and woken expired entries only, and leaves no active
entry that has expired. The second part is the test of the loop. The third is not: the loop takes
its next node before a timer's next release goes back into the tree, so a release that is overdue as
well but sorts before that node stays there, signalled by no one until the next interrupt (`skipped`
of `Visited`). A timer that is alone in its tree and two periods late is enough.

`passComplete_iff` says what has to hold at each iteration. The update path has one more way to
leave an entry: its test need not follow the order of the tree, and the loop stops at the first node
that has not expired.

For both paths it is enough that no timer is more than one release late and that the test follows
the order of the tree on the times involved (`passComplete_of_prompt`).
-/

namespace Qot

section PassComplete

variable (expired : Timepoint → Bool) (alive : Int32 → Bool)

/-- Nothing that has expired is still active, and nothing else was signalled or woken. -/
structure Pass.Clean (e : Pass) : Prop where
  left : ∀ t ∈ e.events, t.sleeperActive = true → expired t.qotExpires = false
  log : ∀ t ∈ e.log, expired t.qotExpires = true

/-- The pass ends, and clean. -/
def PassComplete (s : Pass) : Prop :=
  ∃ e, Loop.EndsIn (wakeOne expired alive) s e ∧ e.Clean expired

/-- The timer is signalled and queued again. -/
def Requeues (t : TimelineSleeper) : Prop :=
  t.periodicTimerFlag = true ∧ alive t.pid = true
    ∧ (t.timerCounts < t.timer.count ∨ t.timer.count = 0)

/-- The condition on an iteration. At a node that has expired: no two timers are stuck there, and if
the next release of a timer is overdue too the loop will come to it. At the node where the loop
stops: no active entry behind it has expired. -/
structure Pass.CatchesUp (s : Pass) : Prop where
  free : ¬ Trapped alive expired s
  release : ∀ t rest, s.ahead = t :: rest → expired t.qotExpires = true → Requeues alive t →
    t.sleeperActive = true → expired t.nextRelease.qotExpires = true →
      goesBehind t.nextRelease rest = true
  behind : ∀ t rest, s.ahead = t :: rest → expired t.qotExpires = false →
    ∀ u ∈ rest, u.sleeperActive = true → expired u.qotExpires = false

end PassComplete

section Iff

variable {expired : Timepoint → Bool} {alive : Int32 → Bool} {s s' e : Pass}

/-! ## What an iteration adds to the nodes passed and to the log -/

variable {u : TimelineSleeper} {events : List TimelineSleeper}

theorem mem_done_eventAdd {t : TimelineSleeper} (h : u ∈ s.done) :
    u ∈ qotTimelineEventAdd s.done t :=
  mem_qotTimelineEventAdd.mpr (Or.inr h)

/-- No node that was passed goes away. -/
theorem done_subset_wakeOne (h : wakeOne expired alive s = some s') : s.done ⊆ s'.done := by
  obtain ⟨t, rest, -, -, hvisit⟩ := wakeOne_some h
  intro u hu
  cases hvisit with
  | behind _ _ _ _ => exact hu
  | skipped _ _ _ _ => exact mem_done_eventAdd hu
  | finished _ _ _ => exact hu
  | orphaned _ _ => exact hu
  | woken _ _ => exact List.mem_append_left _ hu
  | passed _ _ => exact List.mem_append_left _ hu

theorem done_subset_reaches (h : Loop.Reaches (wakeOne expired alive) s s') : s.done ⊆ s'.done :=
  Loop.reaches_induction (I := fun a => s.done ⊆ a.done) (List.Subset.refl _)
    (fun _ _ ha hab => List.Subset.trans ha (done_subset_wakeOne hab)) h

/-- Only the node visited is logged. -/
theorem log_wakeOne (h : wakeOne expired alive s = some s')
    (hlog : ∀ t ∈ s.log, expired t.qotExpires = true) :
    ∀ t ∈ s'.log, expired t.qotExpires = true := by
  obtain ⟨t, rest, -, hexp, hvisit⟩ := wakeOne_some h
  have hnew : ∀ u ∈ s.log ++ [t], expired u.qotExpires = true := by
    intro u hu
    rcases List.mem_append.mp hu with hu | hu
    · exact hlog u hu
    · rw [List.mem_singleton.mp hu]
      exact hexp
  cases hvisit with
  | behind _ _ _ _ => exact hnew
  | skipped _ _ _ _ => exact hnew
  | finished _ _ _ => exact hnew
  | orphaned _ _ => exact hlog
  | woken _ _ => exact hnew
  | passed _ _ => exact hlog

/-- Where the iteration catches up, what it passes is not left behind. -/
theorem done_wakeOne (hcatch : s.CatchesUp expired alive) (h : wakeOne expired alive s = some s')
    (hdone : ∀ t ∈ s.done, t.sleeperActive = true → expired t.qotExpires = false) :
    ∀ t ∈ s'.done, t.sleeperActive = true → expired t.qotExpires = false := by
  obtain ⟨t, rest, hahead, hexp, hvisit⟩ := wakeOne_some h
  cases hvisit with
  | behind _ _ _ _ => exact hdone
  | skipped hper hliving hcount hb =>
    intro u hu hactive
    rcases mem_qotTimelineEventAdd.mp hu with rfl | hu
    · -- a release that is left behind and overdue is what the condition excludes
      cases hlate : expired t.nextRelease.qotExpires with
      | false => rfl
      | true =>
        have := hcatch.release t rest hahead hexp ⟨hper, hliving, hcount⟩ hactive hlate
        rw [hb] at this
        cases this
    · exact hdone u hu hactive
  | finished _ _ _ => exact hdone
  | orphaned _ _ => exact hdone
  | woken _ _ =>
    intro u hu hactive
    rcases List.mem_append.mp hu with hu | hu
    · exact hdone u hu hactive
    · rw [List.mem_singleton.mp hu] at hactive
      cases hactive
  | passed _ hinactive =>
    intro u hu hactive
    rcases List.mem_append.mp hu with hu | hu
    · exact hdone u hu hactive
    · rw [List.mem_singleton.mp hu, hinactive] at hactive
      cases hactive

/-! ## Completeness -/

/-- A release that is overdue and not behind the loop's next node is left in the tree. -/
theorem not_clean_of_skipped {t : TimelineSleeper} {rest : List TimelineSleeper}
    (hahead : s.ahead = t :: rest) (hexp : expired t.qotExpires = true) (hre : Requeues alive t)
    (hactive : t.sleeperActive = true) (hlate : expired t.nextRelease.qotExpires = true)
    (hb : goesBehind t.nextRelease rest = false)
    (hend : Loop.EndsIn (wakeOne expired alive) s e) : ¬ e.Clean expired := by
  intro hclean
  have hstep : wakeOne expired alive s = some (s.wake (alive t.pid) t rest) :=
    wakeOne_of_expired hahead hexp
  have hmem : t.nextRelease ∈ (s.wake (alive t.pid) t rest).done := by
    have hvisit := visited_wake s (alive t.pid) t rest
    generalize s.wake (alive t.pid) t rest = a at hvisit ⊢
    cases hvisit with
    | behind _ _ _ h => rw [hb] at h; cases h
    | skipped _ _ _ _ => exact mem_qotTimelineEventAdd.mpr (Or.inl rfl)
    | finished _ _ h => exact absurd hre.2.2 h
    | orphaned _ h => rw [hre.2.1] at h; cases h
    | woken h _ => rw [hre.1] at h; cases h
    | passed h _ => rw [hre.1] at h; cases h
  have hreach := ((Loop.endsIn_step_iff hstep).mp hend).1
  have hleft := hclean.left _ (List.mem_append_left _ (done_subset_reaches hreach hmem)) hactive
  rw [hlate] at hleft
  cases hleft

/-- **A pass is complete exactly if every iteration catches up.** -/
theorem passComplete_iff (hsorted : EventsSorted s.events) (hdone : s.done = [])
    (hlog : s.log = []) :
    PassComplete expired alive s
      ↔ ∀ s', Loop.Reaches (wakeOne expired alive) s s' → s'.CatchesUp expired alive := by
  constructor
  · rintro ⟨e, hend, hclean⟩ s' hreach
    have hend' := hreach.endsIn_iff.mp hend
    refine ⟨(ends_iff_not_trapped hsorted).mp ⟨e, hend⟩ s' hreach, ?_, ?_⟩
    · intro t rest hahead hexp hre hactive hlate
      by_contra hb
      exact not_clean_of_skipped hahead hexp hre hactive hlate (by simpa using hb) hend' hclean
    · -- the loop stops here
      intro t rest hahead hexp u hu hactive
      have hstop : wakeOne expired alive s' = none :=
        wakeOne_none_iff.mpr (by simpa [hahead] using hexp)
      obtain rfl := (Loop.endsIn_of_none hstop).mp hend'
      refine hclean.left u (List.mem_append_right _ ?_) hactive
      rw [hahead]
      exact List.mem_cons_of_mem _ hu
  · intro hcatch
    obtain ⟨e, hend⟩ := (ends_iff_not_trapped hsorted).mpr fun s' hreach => (hcatch s' hreach).free
    -- along the loop: what is passed is clean, and so is the log
    have hpassed : (∀ t ∈ e.done, t.sleeperActive = true → expired t.qotExpires = false)
        ∧ ∀ t ∈ e.log, expired t.qotExpires = true := by
      refine Loop.reached_induction
        (I := fun a => (∀ t ∈ a.done, t.sleeperActive = true → expired t.qotExpires = false)
          ∧ ∀ t ∈ a.log, expired t.qotExpires = true) ⟨by simp [hdone], by simp [hlog]⟩ ?_ hend.1
      intro a b hreach ha hab
      exact ⟨done_wakeOne (hcatch a hreach) hab ha.1, log_wakeOne hab ha.2⟩
    refine ⟨e, hend, ?_, hpassed.2⟩
    intro u hu hactive
    rcases List.mem_append.mp hu with hu | hu
    · exact hpassed.1 u hu hactive
    · cases hahead : e.ahead with
      | nil =>
        rw [hahead] at hu
        cases hu
      | cons t rest =>
        have hexp : expired t.qotExpires = false :=
          wakeOne_none_iff.mp hend.2 t (by rw [hahead]; rfl)
        rw [hahead] at hu
        rcases List.mem_cons.mp hu with rfl | hu
        · exact hexp
        · exact (hcatch e hend.1).behind t rest hahead hexp u hu hactive

/-! ## A condition on the tree -/

/-- The times at which entries are queued, and those to which they would go next. -/
def releaseTimes (events : List TimelineSleeper) : List Timepoint :=
  events.map (·.qotExpires) ++ events.map (·.nextRelease.qotExpires)

/-- No timer is more than one release late, and the test follows the order on the times involved. -/
structure Prompt (expired : Timepoint → Bool) (events : List TimelineSleeper) : Prop where
  single : ∀ t ∈ events, t.periodicTimerFlag = true → expired t.nextRelease.qotExpires = false
  order : ∀ e ∈ releaseTimes events, ∀ f ∈ releaseTimes events, e.rank ≤ f.rank →
    expired f = true → expired e = true

/-- The nodes ahead are those of the tree, but for releases that are not due. -/
def Ahead (expired : Timepoint → Bool) (events : List TimelineSleeper) (s : Pass) : Prop :=
  ∀ u ∈ s.ahead, u ∈ events
    ∨ (expired u.qotExpires = false ∧ u.qotExpires ∈ releaseTimes events)

/-- What has expired is of the tree. -/
theorem Ahead.mem_events (h : Ahead expired events s) (hu : u ∈ s.ahead)
    (hexp : expired u.qotExpires = true) : u ∈ events := by
  rcases h u hu with hu | ⟨hlate, -⟩
  · exact hu
  · rw [hexp] at hlate
    cases hlate

theorem Ahead.step (hprompt : Prompt expired events) (h : Ahead expired events s)
    (hstep : wakeOne expired alive s = some s') : Ahead expired events s' := by
  obtain ⟨t, rest, hahead, hexp, hvisit⟩ := wakeOne_some hstep
  have hrest : ∀ u ∈ rest, u ∈ events
      ∨ (expired u.qotExpires = false ∧ u.qotExpires ∈ releaseTimes events) := by
    intro u hu
    apply h
    rw [hahead]
    exact List.mem_cons_of_mem _ hu
  intro u hu
  rcases hvisit.ahead_cases with ⟨hs', hper, -⟩ | ⟨hs', -⟩
  · rw [hs'] at hu
    rcases mem_qotTimelineEventAdd.mp hu with rfl | hu
    · have ht : t ∈ events := h.mem_events (by rw [hahead]; exact List.mem_cons_self) hexp
      exact Or.inr ⟨hprompt.single t ht hper,
        List.mem_append_right _ (List.mem_map_of_mem ht)⟩
    · exact hrest u hu
  · rw [hs'] at hu
    exact hrest u hu

theorem Ahead.mem_times (h : Ahead expired events s) (hu : u ∈ s.ahead) :
    u.qotExpires ∈ releaseTimes events := by
  rcases h u hu with hu | ⟨-, hu⟩
  · exact List.mem_append_left _ (List.mem_map_of_mem hu)
  · exact hu

/-- Such a pass catches up at every iteration. -/
theorem Ahead.catchesUp (hprompt : Prompt expired events) (h : Ahead expired events s)
    (hsorted : EventsSorted s.ahead) : s.CatchesUp expired alive := by
  refine ⟨?_, ?_, ?_⟩
  · -- a stuck timer would be due again at once
    rintro ⟨t, ht, hexp, htwo⟩
    obtain ⟨u, hu, hstuck⟩ := List.countP_pos_iff.mp (Nat.lt_of_lt_of_le Nat.zero_lt_two htwo)
    obtain ⟨hend, hexpires, hadd⟩ := stuckAt_iff.mp hstuck
    have hmem := h.mem_events hu (by rw [hexpires]; exact hexp)
    have hlate := hprompt.single u hmem (endless_iff.mp hend).1
    have hsame : u.nextRelease.qotExpires = t.qotExpires := by
      show timepointAdd u.qotExpires u.timer.period = t.qotExpires
      rw [hexpires, hadd]
    rw [hsame, hexp] at hlate
    cases hlate
  · -- no release is overdue
    intro t rest hahead hexp hre _ hlate
    have hmem := h.mem_events (by rw [hahead]; exact List.mem_cons_self) hexp
    rw [hprompt.single t hmem hre.1] at hlate
    cases hlate
  · -- by the order, what is behind a node that has not expired has not either
    intro t rest hahead hexp u hu _
    cases hlate : expired u.qotExpires with
    | false => rfl
    | true =>
      rw [hahead] at hsorted
      have hle := (List.pairwise_cons.mp hsorted).1 u hu
      have htimes : ∀ v ∈ t :: rest, v.qotExpires ∈ releaseTimes events := by
        intro v hv
        rw [← hahead] at hv
        exact h.mem_times hv
      have := hprompt.order _ (htimes t List.mem_cons_self) _
        (htimes u (List.mem_cons_of_mem _ hu)) hle hlate
      rw [hexp] at this
      cases this

theorem passComplete_of_prompt (hsorted : EventsSorted s.events) (hdone : s.done = [])
    (hlog : s.log = []) (hprompt : Prompt expired s.ahead) : PassComplete expired alive s := by
  rw [passComplete_iff hsorted hdone hlog]
  intro s' hreach
  have hahead : Ahead expired s.ahead s' :=
    Loop.reaches_induction (I := Ahead expired s.ahead) (fun u hu => Or.inl hu)
      (fun _ _ ha hab => ha.step hprompt hab) hreach
  exact hahead.catchesUp hprompt (reaches_sorted hsorted hreach).ahead

end Iff

/-! ## The interrupt and the update path -/

/-- **The interrupt's pass over all timelines is complete**: it ends, and each timeline is left as
its own pass leaves it, clean by the timeline's time at core time `c`. -/
def InterruptComplete (clkglParams : TlTranslation) (timelines : List Timeline)
    (alive : Int32 → Bool) (c : Int64) : Prop :=
  ∃ fuel timelines', wakeTimelines clkglParams c alive fuel timelines = some timelines'
    ∧ List.Forall₂ (fun tl tl' => ∃ e : Pass,
        Loop.EndsIn (wakeOne (interruptTest clkglParams tl c) alive) tl.pass e
          ∧ tl' = { tl with events := e.events } ∧ e.Clean (interruptTest clkglParams tl c))
      timelines timelines'

/-- **The update path's pass over its timeline is complete**: core expiries are compared with the
core time it reads. -/
def UpdateComplete (k : Kernel) (i : Nat) (tl : Timeline) (r : UpdateReadings)
    (alive : Int32 → Bool) : Prop :=
  ∃ fuel k' e, qotSchedulerUpdate k i tl r alive fuel = some k'
    ∧ Loop.EndsIn (wakeOne (updateTest k.clkglParams tl r.core) alive) tl.pass e
    ∧ k'.timelines = k.timelines.set i { tl with events := e.events }
    ∧ e.Clean (updateTest k.clkglParams tl r.core)

theorem wakeTimeline_of_endsIn {clkglParams : TlTranslation} {tl : Timeline} {c : Int64}
    {alive : Int32 → Bool} {e : Pass}
    (h : Loop.EndsIn (wakeOne (interruptTest clkglParams tl c) alive) tl.pass e) :
    ∃ fuel, ∀ f, fuel ≤ f →
      wakeTimeline clkglParams c alive f tl = some { tl with events := e.events } := by
  obtain ⟨fuel, hfuel⟩ := exists_fuel h
  refine ⟨fuel, fun f hf => ?_⟩
  have hloop : wakeLoop (interruptTest clkglParams tl c) alive f [] tl.events
      = some (e.done, e.ahead) := hfuel f hf
  show Option.map _ (wakeLoop (interruptTest clkglParams tl c) alive f [] tl.events) = _
  rw [hloop]
  rfl

theorem interruptComplete_iff_passComplete (clkglParams : TlTranslation)
    (timelines : List Timeline) (alive : Int32 → Bool) (c : Int64) :
    InterruptComplete clkglParams timelines alive c
      ↔ ∀ tl ∈ timelines, PassComplete (interruptTest clkglParams tl c) alive tl.pass := by
  constructor
  · rintro ⟨-, timelines', -, hall⟩
    induction hall with
    | nil => simp
    | cons hhead _ ih =>
      intro tl htl
      rcases List.mem_cons.mp htl with rfl | htl
      · obtain ⟨e, hend, -, hclean⟩ := hhead
        exact ⟨e, hend, hclean⟩
      · exact ih tl htl
  · -- a number of iterations that is enough for each timeline is enough for all
    intro h
    have hall : ∃ fuel timelines', (∀ f, fuel ≤ f →
        wakeTimelines clkglParams c alive f timelines = some timelines')
        ∧ List.Forall₂ (fun tl tl' => ∃ e : Pass,
          Loop.EndsIn (wakeOne (interruptTest clkglParams tl c) alive) tl.pass e
            ∧ tl' = { tl with events := e.events } ∧ e.Clean (interruptTest clkglParams tl c))
          timelines timelines' := by
      induction timelines with
      | nil => exact ⟨0, [], fun f _ => rfl, .nil⟩
      | cons tl tls ih =>
        obtain ⟨e, hend, hclean⟩ := h tl List.mem_cons_self
        obtain ⟨fuel₁, hfuel₁⟩ := wakeTimeline_of_endsIn hend
        obtain ⟨fuel₂, tls', hfuel₂, hrest⟩ := ih fun tl htl => h tl (List.mem_cons_of_mem _ htl)
        refine ⟨max fuel₁ fuel₂, _, fun f hf => ?_, .cons ⟨e, hend, rfl, hclean⟩ hrest⟩
        rw [wakeTimelines, hfuel₁ f ((le_max_left _ _).trans hf),
          hfuel₂ f ((le_max_right _ _).trans hf)]
        rfl
    obtain ⟨fuel, timelines', hfuel, hforall⟩ := hall
    exact ⟨fuel, timelines', hfuel fuel le_rfl, hforall⟩

theorem qotSchedulerUpdate_of_endsIn {k : Kernel} (i : Nat) {tl : Timeline} {r : UpdateReadings}
    {alive : Int32 → Bool} {e : Pass}
    (h : Loop.EndsIn (wakeOne (updateTest k.clkglParams tl r.core) alive) tl.pass e) :
    ∃ fuel k', qotSchedulerUpdate k i tl r alive fuel = some k'
      ∧ k'.timelines = k.timelines.set i { tl with events := e.events } := by
  obtain ⟨fuel, hfuel⟩ := exists_fuel h
  have hloop : wakeLoop (updateTest k.clkglParams tl r.core) alive fuel [] tl.events
      = some (e.done, e.ahead) := hfuel fuel le_rfl
  have hsome : (qotSchedulerUpdate k i tl r alive fuel).isSome := by
    show (Option.map _ (wakeLoop (updateTest k.clkglParams tl r.core) alive fuel []
      tl.events)).isSome
    rw [hloop]
    rfl
  obtain ⟨k', hk'⟩ := Option.isSome_iff_exists.mp hsome
  obtain ⟨-, d, rest, hloop', htimelines⟩ := qotSchedulerUpdate_frame hk'
  have hsame : some (d, rest) = some (e.done, e.ahead) := hloop'.symm.trans hloop
  cases hsame
  exact ⟨fuel, k', hk', htimelines⟩

theorem updateComplete_iff_passComplete (k : Kernel) (i : Nat) (tl : Timeline) (r : UpdateReadings)
    (alive : Int32 → Bool) :
    UpdateComplete k i tl r alive
      ↔ PassComplete (updateTest k.clkglParams tl r.core) alive tl.pass := by
  constructor
  · rintro ⟨-, -, e, -, hend, -, hclean⟩
    exact ⟨e, hend, hclean⟩
  · rintro ⟨e, hend, hclean⟩
    obtain ⟨fuel, k', hk', htimelines⟩ := qotSchedulerUpdate_of_endsIn i hend
    exact ⟨fuel, k', e, hk', hend, htimelines, hclean⟩

/-- The interrupt's test follows the order of the tree. -/
theorem interruptTest_order (clkglParams : TlTranslation) (tl : Timeline) (c : Int64)
    {e f : Timepoint} (hle : e.rank ≤ f.rank) (hf : interruptTest clkglParams tl c f = true) :
    interruptTest clkglParams tl c e = true := by
  rw [interruptTest_iff] at hf ⊢
  omega

/-- **Completeness of the wake-up passes**, exactly where every iteration catches up. For the
interrupt it is enough that no timer is more than one release late; for the update path, that its
test follows the order of the tree as well. -/
theorem wake_pass_complete_iff (k : Kernel) (hsorted : ∀ tl ∈ k.timelines, EventsSorted tl.events)
    (alive : Int32 → Bool) :
    (∀ c, InterruptComplete k.clkglParams k.timelines alive c
        ↔ ∀ tl ∈ k.timelines, ∀ s,
          Loop.Reaches (wakeOne (interruptTest k.clkglParams tl c) alive) tl.pass s →
            s.CatchesUp (interruptTest k.clkglParams tl c) alive)
      ∧ (∀ i tl, k.timelines[i]? = some tl → ∀ r : UpdateReadings,
        UpdateComplete k i tl r alive
          ↔ ∀ s, Loop.Reaches (wakeOne (updateTest k.clkglParams tl r.core) alive) tl.pass s →
            s.CatchesUp (updateTest k.clkglParams tl r.core) alive)
      ∧ (∀ c, (∀ tl ∈ k.timelines, ∀ t ∈ tl.events, t.periodicTimerFlag = true →
          interruptTest k.clkglParams tl c t.nextRelease.qotExpires = false) →
        InterruptComplete k.clkglParams k.timelines alive c)
      ∧ ∀ i tl, k.timelines[i]? = some tl → ∀ r : UpdateReadings,
        Prompt (updateTest k.clkglParams tl r.core) tl.events → UpdateComplete k i tl r alive := by
  have hpass : ∀ tl ∈ k.timelines, EventsSorted tl.pass.events := hsorted
  refine ⟨?_, ?_, ?_, ?_⟩
  · intro c
    rw [interruptComplete_iff_passComplete]
    exact forall₂_congr fun tl htl => passComplete_iff (hpass tl htl) rfl rfl
  · intro i tl htl r
    rw [updateComplete_iff_passComplete]
    exact passComplete_iff (hpass tl (List.mem_of_getElem? htl)) rfl rfl
  · intro c hsingle
    rw [interruptComplete_iff_passComplete]
    intro tl htl
    refine passComplete_of_prompt (hpass tl htl) rfl rfl ⟨hsingle tl htl, ?_⟩
    intro e _ f _ hle
    exact interruptTest_order k.clkglParams tl c hle
  · intro i tl htl r hprompt
    rw [updateComplete_iff_passComplete]
    exact passComplete_of_prompt (hpass tl (List.mem_of_getElem? htl)) rfl rfl hprompt

/-- A timer with a period of one second, queued for the given second. -/
def secondsTimer (sec : Int64) (timerCounts : Int32) : TimelineSleeper where
  addr := 1
  task := true
  pid := 7
  sleeperActive := true
  qotExpires := ⟨sec, 0⟩
  periodicTimerFlag := true
  timer := ⟨⟨10, 0⟩, ⟨1, 0⟩, 0⟩
  timerCounts := timerCounts

/-- Half a second late it is signalled, and nothing is left. -/
theorem wake_pass_complete_iff_prompt :
    InterruptComplete initTranslation [⟨.qotTimelineLocal, initTranslation, [secondsTimer 10 1]⟩]
      (fun _ => true) 10500000000 :=
  (wake_pass_complete_iff (steadyKernel [secondsTimer 10 1]) (by unfold EventsSorted; decide)
    fun _ => true).2.2.1 10500000000 (by decide)

/-- The release that is overdue as well has no node before it to go behind. -/
theorem not_passComplete_secondsTimer {expired : Timepoint → Bool}
    (h10 : expired ⟨10, 0⟩ = true) (h11 : expired ⟨11, 0⟩ = true) :
    ¬ PassComplete expired (fun _ => true) (Pass.start BindingTable.empty [secondsTimer 10 1]) := by
  rw [passComplete_iff (by unfold EventsSorted; decide) rfl rfl]
  intro hcatch
  have hbehind := (hcatch _ (Loop.Reaches.refl _)).release (secondsTimer 10 1) [] rfl h10
    ⟨rfl, rfl, Or.inr rfl⟩ rfl h11
  cases hbehind

/-- Two and a half seconds late, two releases are still due when the pass is over. -/
theorem wake_pass_incomplete :
    qotInitTimerSleeper 1 7 ⟨⟨10, 0⟩, ⟨1, 0⟩, 0⟩ ⟨1, 0⟩ = some (secondsTimer 10 1)
      ∧ wakeTimelines initTranslation 12500000000 (fun _ => true) 1
          [⟨.qotTimelineLocal, initTranslation, [secondsTimer 10 1]⟩]
        = some [⟨.qotTimelineLocal, initTranslation, [secondsTimer 11 2]⟩]
      ∧ expiredOnTimeline .qotTimelineLocal initTranslation initTranslation (tpFromNsec 12500000000)
        (secondsTimer 11 2).qotExpires
      ∧ ¬ InterruptComplete initTranslation
          [⟨.qotTimelineLocal, initTranslation, [secondsTimer 10 1]⟩] (fun _ => true) 12500000000
      ∧ ∀ k : Kernel, k.clkglParams = initTranslation →
        ¬ UpdateComplete k 0 ⟨.qotTimelineLocal, initTranslation, [secondsTimer 10 1]⟩
          ⟨12500000000, 12500000000, 12500000000, 12500000000⟩ (fun _ => true) := by
  refine ⟨by decide, by decide, by decide, ?_, ?_⟩
  · rw [interruptComplete_iff_passComplete]
    intro h
    exact not_passComplete_secondsTimer (by decide) (by decide) (h _ List.mem_cons_self)
  · intro k hk
    rw [updateComplete_iff_passComplete, hk]
    exact not_passComplete_secondsTimer (by decide) (by decide)

end Qot
