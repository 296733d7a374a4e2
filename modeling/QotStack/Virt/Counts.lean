import QotStack.Virt.Slots

/-!
# QotStack — the guests on a timeline, counted

For each of its slots the daemon counts the guests: up when it answers a CREATE, down when it
answers a DESTROY, and when the count comes to zero it destroys the timeline. `bind_counts_exact`
says that the counts are the answers the guests got, in every run whose steps are `CountSafe`:
guests create and destroy timelines of the daemon only, and the calls it makes for them do not fail
half way.
-/

namespace Qot

open Runs SlotTable

/-! ## The answers -/

/-- What an answer adds to the guests of a timeline. -/
def answerWeight (msg : QotVirtmsg) (ok : Bool) (index : Int32) : Int :=
  if ok = true ∧ msg.info.index = index then
    match msg.msgtype with
    | .timelineCreate => 1
    | .timelineDestroy => -1
    | _ => 0
  else 0

/-- The CREATEs answered OK minus the DESTROYs answered OK for an index, since a slot was last taken
for it. -/
def netSince (index : Int32) : List HostEvent → Int
  | [] => 0
  | .taken i :: history => if i = index then 0 else netSince index history
  | .answered _ msg ok :: history => netSince index history + answerWeight msg ok index

/-- The newest event is a CREATE answered OK for this timeline. -/
def JustGranted (history : List HostEvent) (t : QotTimeline) : Prop :=
  ∃ guest msg, history.head? = some (.answered guest msg true) ∧ msg.msgtype = .timelineCreate
    ∧ msg.info = t

/-- The used slots stand for different timelines of the kernel, each with the right count,
`tl_count` is their number, and a CREATE is answered OK for a timeline that has one. -/
structure CountsExact (s : VirtHost) : Prop where
  distinct : (slotIndices s.vtimeline).Nodup
  registered : ∀ i ∈ slotIndices s.vtimeline, i ∈ s.kernel.indices
  counted : ∀ v ∈ slotsOf s.vtimeline, v.bindCount = Int32.ofInt (netSince v.index s.history)
  tlCount : s.tlCount = (slotIndices s.vtimeline).length
  granted : ∀ t, JustGranted s.history t → Serving s.kernel s.vtimeline t

/-- The daemon has answered, and its table is exact. -/
def ExactWhenIdle (s : VirtHost) : Prop := s.pc = .idle → CountsExact s

/-- A CREATE or DESTROY of a timeline that is there concerns one of the daemon. -/
def OfDaemon (s : VirtHost) (msg : QotVirtmsg) : Prop :=
  match msg.msgtype, qotTimelineFind s.kernel.reg msg.info.name with
  | .timelineCreate, some t => t.index ∈ slotIndices s.vtimeline
  | .timelineDestroy, some t => t.index ∈ slotIndices s.vtimeline
  | _, _ => True

/-- Guests create and destroy timelines of the daemon; nobody creates one between the daemon's
lookup and its create, or removes one it has a slot for; joining a new timeline works, and a destroy
reaches the kernel. -/
def CountSafe (s : VirtHost) : DaemonOp → Prop
  | .receive _ msg _ => OfDaemon s msg
  | .create _ _ => StillAbsent s
  | .join opened copied alloc copiedBack =>
    opened = true ∧ copied = true ∧ alloc = true ∧ copiedBack = true
  | .destroy copied => copied = true
  | .app op => SparesSlots s op
  | _ => True

instance (s : VirtHost) (msg : QotVirtmsg) : Decidable (OfDaemon s msg) := by
  unfold OfDaemon; split <;> infer_instance

instance (s : VirtHost) : DecidablePred (CountSafe s)
  | .receive .. | .create .. | .join .. | .update .. | .leave .. | .destroy .. | .app .. => by
    delta CountSafe; infer_instance

variable {s : VirtHost} {msg : QotVirtmsg} {t : QotTimeline}

theorem CountSafe.slotSafe {op : DaemonOp} (h : CountSafe s op) : SlotSafe s op := by
  cases op with
  | receive guest msg copy =>
    intro htype t hfind
    have hg : OfDaemon s msg := h
    simpa only [OfDaemon, htype, Option.mem_def.mp hfind] using hg
  | create copy svc => exact h
  | app op => exact h
  | _ => trivial

/-! ## Between two calls -/

/-- What the message being handled has done to the count and not yet to the answers. -/
def pending (pc : HostPc) (index : Int32) : Int :=
  match pc with
  | .joining _ msg => if msg.info.index = index then 1 else 0
  | .leaving _ msg => if msg.info.index = index then -1 else 0
  | .destroying _ msg _ => if msg.info.index = index then -1 else 0
  | _ => 0

@[simp] theorem pending_idle (i : Int32) : pending .idle i = 0 := rfl

@[simp] theorem pending_creating (guest : Nat) (msg : QotVirtmsg) (i : Int32) :
    pending (.creating guest msg) i = 0 := rfl

@[simp] theorem pending_updating (guest : Nat) (msg : QotVirtmsg) (i : Int32) :
    pending (.updating guest msg) i = 0 := rfl

/-- The counts of the slots are given by `count`. -/
def Counted (vtimeline : List TimelineVirt) (count : Int32 → Int) : Prop :=
  ∀ v ∈ slotsOf vtimeline, v.bindCount = Int32.ofInt (count v.index)

structure CountInv (me : Int32) (s : VirtHost) : Prop where
  slots : SlotInv me s
  counted : Counted s.vtimeline fun i => netSince i s.history + pending s.pc i
  granted : ∀ t, JustGranted s.history t → Serving s.kernel s.vtimeline t

theorem CountInv.exactWhenIdle {me : Int32} (h : CountInv me s) : ExactWhenIdle s := by
  intro hpc
  refine ⟨h.slots.sound.distinct, h.slots.sound.registered, fun v hv => ?_, h.slots.sound.tlCount,
    h.granted⟩
  have hcount := h.counted v hv
  simpa only [hpc, pending, Int.add_zero] using hcount

theorem answerWeight_not_ok (msg : QotVirtmsg) (index : Int32) :
    answerWeight msg false index = 0 := by
  simp [answerWeight]

theorem answerWeight_other {index : Int32} (h : msg.info.index ≠ index) (ok : Bool) :
    answerWeight msg ok index = 0 := by
  simp [answerWeight, h]

theorem answerWeight_create (msg : QotVirtmsg) (h : msg.msgtype = .timelineCreate) (index : Int32) :
    answerWeight msg true index = if msg.info.index = index then 1 else 0 := by
  simp [answerWeight, h]

theorem answerWeight_destroy (msg : QotVirtmsg) (h : msg.msgtype = .timelineDestroy)
    (index : Int32) : answerWeight msg true index = if msg.info.index = index then -1 else 0 := by
  simp [answerWeight, h]

theorem answerWeight_update (h : msg.msgtype = .timelineUpdate) (ok : Bool) (index : Int32) :
    answerWeight msg ok index = 0 := by
  simp [answerWeight, h]

section
variable {vtimeline vtimeline' : List TimelineVirt} {count count' : Int32 → Int}

namespace Counted
variable (h : Counted vtimeline count)
include h

theorem congr
    (hcount : ∀ i ∈ slotIndices vtimeline, count' i = count i) : Counted vtimeline count' := by
  intro v hv
  rw [hcount _ (List.mem_map_of_mem hv)]
  exact h v hv

section
variable (hdistinct : (slotIndices vtimeline).Nodup)
include hdistinct

/-- Adding to the count of one slot. -/
theorem add {t : QotTimeline} {d : Int} {f : Int32 → Int32}
    (hf : ∀ n, f (Int32.ofInt n) = Int32.ofInt (n + d))
    (hindex : t.index ≠ noTimeline) (hslot : t.index ∈ slotIndices vtimeline)
    (hcount : ∀ i, count' i = count i + if t.index = i then d else 0) :
    Counted (modifyAt TimelineVirt.index t.index
      (fun v => { v with bindCount := f v.bindCount }) vtimeline) count' := by
  obtain ⟨v, rest, hv, hslots, hslots'⟩ := used_modifyAt TimelineVirt.index
    (f := fun v => { v with bindCount := f v.bindCount }) hindex (fun _ => rfl)
    (mem_slotIndices.mp hslot)
  have hindices : (slotIndices vtimeline).Perm (v.index :: rest.map (·.index)) := hslots.map _
  obtain ⟨hfresh, -⟩ := List.nodup_cons.mp (hindices.nodup_iff.mp hdistinct)
  intro w hw
  rcases List.mem_cons.mp (hslots'.subset hw) with rfl | hw
  · have hold := h v (hslots.symm.subset List.mem_cons_self)
    simp only [hcount, hold, hf, hv, if_true]
  · have hold := h w (hslots.symm.subset (List.mem_cons_of_mem _ hw))
    have hne : t.index ≠ w.index := fun hw' => hfresh (hv.trans hw' ▸ List.mem_map_of_mem hw)
    rw [hcount, if_neg hne, Int.add_zero, hold]

theorem increment
    {t : QotTimeline} (hindex : t.index ≠ noTimeline) (hslot : t.index ∈ slotIndices vtimeline)
    (hcount : ∀ i, count' i = count i + if t.index = i then 1 else 0) :
    Counted (incrementBindCount vtimeline t) count' :=
  h.add hdistinct (f := (· + 1)) (fun n => (Int32.ofInt_add n 1).symm) hindex hslot hcount

theorem decrement
    {t : QotTimeline} (hindex : t.index ≠ noTimeline) (hslot : t.index ∈ slotIndices vtimeline)
    (hcount : ∀ i, count' i = count i + if t.index = i then -1 else 0) :
    Counted (decrementBindCount vtimeline t) count' :=
  h.add hdistinct (f := (· - 1)) (fun n => (Int32.ofInt_sub n 1).symm) hindex hslot hcount

end

theorem stopThread {t : QotTimeline}
    (hindex : t.index ≠ noTimeline) (hslot : t.index ∈ slotIndices vtimeline) :
    Counted (stopThread vtimeline t) count := by
  obtain ⟨v, rest, hv, hslots, hslots'⟩ := used_modifyAt TimelineVirt.index
    (f := fun v => { v with running := false }) hindex (fun _ => rfl) (mem_slotIndices.mp hslot)
  intro w hw
  rcases List.mem_cons.mp (hslots'.subset hw) with rfl | hw
  · exact h v (hslots.symm.subset List.mem_cons_self)
  · exact h w (hslots.symm.subset (List.mem_cons_of_mem _ hw))

/-- A new slot, with a count of one. -/
theorem take {i : Int32}
    (hslots : (slotsOf vtimeline').Perm (⟨i, 1, true⟩ :: slotsOf vtimeline)) (hnew : count' i = 1)
    (hcount : ∀ j ∈ slotIndices vtimeline, count' j = count j) : Counted vtimeline' count' := by
  intro v hv
  rcases List.mem_cons.mp (hslots.subset hv) with rfl | hv
  · exact (congrArg Int32.ofInt hnew).symm
  · exact h.congr hcount v hv

/-- A slot less. -/
theorem release (hdistinct : (slotIndices vtimeline).Nodup)
    {t : QotTimeline} (hindex : t.index ≠ noTimeline) (hslot : t.index ∈ slotIndices vtimeline)
    (hcount : ∀ i, i ≠ t.index → count' i = count i) :
    Counted (removeTimelineFromList vtimeline t) count' := by
  obtain ⟨v, rest, hv, hslots, hslots'⟩ := removeTimelineFromList_cases hindex hslot
  have hindices : (slotIndices vtimeline).Perm (v.index :: rest.map (·.index)) := hslots.map _
  obtain ⟨hfresh, -⟩ := List.nodup_cons.mp (hindices.nodup_iff.mp hdistinct)
  intro w hw
  have hw' : w ∈ rest := hslots'.subset hw
  rw [hcount w.index fun hwi => hfresh ((hv.trans hwi.symm) ▸ List.mem_map_of_mem hw')]
  exact h w (hslots.symm.subset (List.mem_cons_of_mem _ hw'))

end Counted

end

theorem JustGranted.answered {history : List HostEvent} {guest : Nat} {ok : Bool}
    (h : JustGranted (.answered guest msg ok :: history) t) :
    ok = true ∧ msg.msgtype = .timelineCreate ∧ msg.info = t := by
  obtain ⟨guest', msg', hhead, htype, hinfo⟩ := h
  simp only [List.head?_cons] at hhead
  cases hhead
  exact ⟨rfl, htype, hinfo⟩

theorem not_justGranted {history : List HostEvent} {guest : Nat} {ok : Bool}
    (h : msg.msgtype ≠ .timelineCreate) (t : QotTimeline) :
    ¬ JustGranted (.answered guest msg ok :: history) t :=
  fun ht => h ht.answered.2.1

theorem OfDaemon.serving (h : OfDaemon s msg)
    (htype : msg.msgtype = .timelineCreate ∨ msg.msgtype = .timelineDestroy)
    (hfind : qotTimelineFind s.kernel.reg msg.info.name = some t) :
    Serving s.kernel s.vtimeline t := by
  refine Serving.of_find ?_ hfind
  rcases htype with htype | htype
  · simpa only [OfDaemon, htype, hfind] using h
  · simpa only [OfDaemon, htype, hfind] using h

theorem Serving.of_slotIndices_eq {k : HostKernel} {vtimeline vtimeline' : List TimelineVirt}
    (h : Serving k vtimeline t) (hindices : slotIndices vtimeline' = slotIndices vtimeline) :
    Serving k vtimeline' t :=
  ⟨hindices ▸ h.slot, h.found⟩

/-! ## The steps -/

namespace CountInv
variable {me : Int32} {s s' : VirtHost} (h : CountInv me s)
include h

variable {guest : Nat} {msg : QotVirtmsg}

/-- An answer that is not OK, to a message that has changed no count. -/
theorem answer_error {k' : HostKernel} (hpending : ∀ i, pending s.pc i = 0) :
    (Counted s.vtimeline fun i =>
        netSince i (.answered guest msg false :: s.history) + pending .idle i)
      ∧ ∀ t, JustGranted (.answered guest msg false :: s.history) t → Serving k' s.vtimeline t := by
  refine ⟨h.counted.congr fun i _ => ?_, fun t ht => ?_⟩
  · simp only [netSince, answerWeight_not_ok, hpending, pending_idle, Int.add_zero]
  · simpa using ht.answered.1

theorem receive {copy : UserCopy} (hpc : s.pc = .idle) (hg : OfDaemon s msg)
    (hreceived : Received s guest msg copy s') :
    (Counted s'.vtimeline fun i => netSince i s'.history + pending s'.pc i)
      ∧ ∀ t, JustGranted s'.history t → Serving s'.kernel s'.vtimeline t := by
  have hsound := h.slots.sound
  cases hreceived with
  | counted t htype hfind =>
    have hserving := hg.serving (Or.inl htype) hfind
    refine ⟨h.counted.increment hsound.distinct
      (hsound.ne_noTimeline_of_find hfind) hserving.slot fun i => ?_, fun u hu => ?_⟩
    · simp only [VirtHost.reply, netSince, hpc, pending_idle, Int.add_zero,
        answerWeight_create { msg with info := t } htype]
    · obtain ⟨-, -, rfl⟩ := hu.answered
      exact hserving.of_slotIndices_eq (slotIndices_incrementBindCount s.vtimeline t)
  | absent htype hroom hmissed =>
    refine ⟨h.counted.congr fun i _ => ?_, h.granted⟩
    simp only [hpc, pending_idle, pending_creating]
  | discounted t n htype hfind hcount hn =>
    have hserving := hg.serving (Or.inr htype) hfind
    refine ⟨h.counted.decrement hsound.distinct (hsound.ne_noTimeline_of_find hfind)
      hserving.slot fun i => ?_, fun u hu => absurd hu (not_justGranted (by simp [htype]) u)⟩
    simp only [VirtHost.reply, netSince, hpc, pending_idle, Int.add_zero,
      answerWeight_destroy { msg with info := t } htype]
  | last t htype hfind hcount =>
    have hindex := hsound.ne_noTimeline_of_find hfind
    have hserving := hg.serving (Or.inr htype) hfind
    have hslot : t.index ∈ slotIndices (decrementBindCount s.vtimeline t) :=
      slotIndices_decrementBindCount s.vtimeline t ▸ hserving.slot
    refine ⟨Counted.stopThread ?_ hindex hslot, fun u hu => ?_⟩
    · refine h.counted.decrement hsound.distinct hindex hserving.slot fun i => ?_
      simp only [hpc, pending, Int.add_zero]
    · exact (h.granted u hu).of_slotIndices_eq
        ((slotIndices_stopThread _ t).trans (slotIndices_decrementBindCount _ t))
  | updating t htype hfind =>
    refine ⟨h.counted.congr fun i _ => ?_, h.granted⟩
    simp only [hpc, pending_idle, pending_updating]
  | refused hmissed => exact h.answer_error fun i => by rw [hpc, pending_idle]

theorem create {copy : UserCopy} {svc : CreateServices} (hpc : s.pc = .creating guest msg)
    (hg : StillAbsent s) (hcreated : Created me s guest msg copy svc s') :
    (Counted s'.vtimeline fun i => netSince i s'.history + pending s'.pc i)
      ∧ ∀ t, JustGranted s'.history t → Serving s'.kernel s'.vtimeline t := by
  simp only [StillAbsent, hpc] at hg
  cases hcreated with
  | failed k' hk' => exact h.answer_error fun i => by rw [hpc, pending_creating]
  | existed k' s' hcopy hfind hkept htake => simp [hg] at hfind
  | made new k' s' hnew hreg htake =>
    obtain ⟨hslot, vtimeline, -, hslots, rfl⟩ := h.slots.sound.takeSlot_registered hreg htake
    refine ⟨h.counted.take hslots ?_ fun i hi => ?_, fun t ht => ?_⟩
    · simp only [netSince, pending, if_true, Int.zero_add]
    · have hne : new.index ≠ i := fun hi' => hslot (hi' ▸ hi)
      simp only [netSince, pending, hpc, hne, if_false]
    · obtain ⟨_, _, hhead, -⟩ := ht
      simp at hhead

theorem join (hpc : s.pc = .joining guest msg) :
    CountInv me (s.join me guest msg true true true true) := by
  obtain ⟨htype, hserving, hown⟩ := h.slots.joining hpc
  obtain ⟨k', hbound, heq⟩ :=
    join_succeeds guest (h.slots.sound.registered _ hserving.slot) hown
  rw [heq]
  refine ⟨⟨h.slots.sound.of_reg_eq hbound.reg, trivial⟩, h.counted.congr fun i _ => ?_,
    fun t ht => ?_⟩
  · -- what was pending is in the answers now
    simp only [VirtHost.reply, netSince, hpc, pending, answerWeight_create msg htype, Int.add_zero]
  · obtain ⟨-, -, rfl⟩ := ht.answered
    exact hserving.of_reg_eq hbound.reg

theorem destroy {ok : Bool} (hpc : s.pc = .destroying guest msg ok) :
    (Counted (s.destroy guest msg ok true).vtimeline fun i =>
        netSince i (s.destroy guest msg ok true).history
          + pending (s.destroy guest msg ok true).pc i)
      ∧ ∀ t, ¬ JustGranted (s.destroy guest msg ok true).history t := by
  obtain ⟨htype, hserving⟩ := h.slots.destroying hpc
  obtain ⟨k', -, heq⟩ := destroy_cases s guest msg ok
  rw [heq]
  refine ⟨h.counted.release h.slots.sound.distinct
    (h.slots.sound.ne_noTimeline (h.slots.sound.registered _ hserving.slot)) hserving.slot
    fun i hi => ?_, not_justGranted (by simp [htype])⟩
  simp only [VirtHost.reply, netSince, hpc, pending,
    answerWeight_other (Ne.symm hi) ok, if_neg (Ne.symm hi), Int.add_zero]

theorem step {op : DaemonOp} (hg : CountSafe s op) (hstep : hostStep me s op = some s') :
    CountInv me s' := by
  have hslots : SlotInv me s' := h.slots.step hg.slotSafe hstep
  cases hostStep_effect hstep with
  | receive guest msg copy s' hpc hreceived =>
    obtain ⟨hcounted, hgranted⟩ := h.receive hpc hg hreceived
    exact ⟨hslots, hcounted, hgranted⟩
  | create guest msg copy svc s' hpc hcreated =>
    obtain ⟨hcounted, hgranted⟩ := h.create hpc hg hcreated
    exact ⟨hslots, hcounted, hgranted⟩
  | join guest msg _ _ _ _ s' hpc hs' =>
    obtain ⟨rfl, rfl, rfl, rfl⟩ := hg
    exact hs' ▸ h.join hpc
  | update guest msg _ _ s' hpc hrebound =>
    have htype := h.slots.updating hpc
    have hcounted : ∀ ok, Counted s.vtimeline fun i =>
        netSince i (.answered guest msg ok :: s.history) + pending .idle i := by
      refine fun ok => h.counted.congr fun i _ => ?_
      simp only [netSince, answerWeight_update htype, hpc, pending_idle, pending_updating,
        Int.add_zero]
    have hother : msg.msgtype ≠ .timelineCreate := by simp [htype]
    cases hrebound with
    | refused => exact ⟨hslots, hcounted false, fun t ht => absurd ht (not_justGranted hother t)⟩
    | bound k' => exact ⟨hslots, hcounted true, fun t ht => absurd ht (not_justGranted hother t)⟩
  | leave guest msg opened copied hpc =>
    obtain ⟨k', ok, hreg, -, heq⟩ := leave_cases me s guest msg opened copied
    rw [heq] at hslots ⊢
    refine ⟨hslots, h.counted.congr fun i _ => ?_, fun t ht => (h.granted t ht).of_reg_eq hreg⟩
    simp only [hpc, pending]
  | destroy guest msg ok copied hpc =>
    have hcopied : copied = true := hg
    subst hcopied
    obtain ⟨hcounted, hgranted⟩ := h.destroy hpc
    exact ⟨hslots, hcounted, fun t ht => absurd ht (hgranted t)⟩
  | app op k' heffect =>
    exact ⟨hslots, h.counted, fun t ht => heffect.serving hg t (h.granted t ht)⟩

end CountInv

theorem countInv_started (me : Int32) : CountInv me VirtHost.started := by
  have hnone : slotsOf VirtHost.started.vtimeline = [] := by decide
  refine ⟨slotInv_started me, ?_, ?_⟩
  · intro v hv
    rw [hnone] at hv
    simp at hv
  · rintro t ⟨guest, msg, hhead, -⟩
    simp [VirtHost.started] at hhead

/-- **The bind counts.** In every run of the host, with any messages of the guests and any doings of
other programs, whose steps are `CountSafe`, the table is exact whenever the daemon has answered:
the used slots stand for different timelines of the kernel, a count is, as an `int`, the CREATEs
answered OK minus the DESTROYs answered OK since the slot was taken, `tl_count` is the number of
used slots, and a CREATE answered OK is for a timeline with a slot. -/
theorem bind_counts_exact (me : Int32) (ops : List DaemonOp)
    (h : AllSteps (hostStep me) CountSafe VirtHost.started ops) :
    AllStates (hostStep me) ExactWhenIdle VirtHost.started ops :=
  allStates_of_inv (fun _ hs => hs.exactWhenIdle) (fun _ _ _ hs hg hstep => hs.step hg hstep)
    (countInv_started me) h

theorem bind_counts_exact_twoGuests :
    AllSteps (hostStep 1) CountSafe VirtHost.started twoGuests
      ∧ AllStates (hostStep 1) ExactWhenIdle VirtHost.started twoGuests := by
  have hsafe : AllSteps (hostStep 1) CountSafe VirtHost.started twoGuests := by decide
  exact ⟨hsafe, bind_counts_exact 1 twoGuests hsafe⟩

/-- A guest asks for a timeline of another program. -/
def othersTimeline : List DaemonOp :=
  [.app (.createTimeline ⟨letterName 0, 0, .qotTimelineLocal⟩ ⟨true, true⟩ ⟨true, 0⟩),
    .receive 0 (letterMsg .timelineCreate 0) ⟨true, true⟩]

theorem othersTimeline_runs :
    (exec (hostStep 1) VirtHost.started othersTimeline).isSome := by decide

/-- It is told OK, and no slot counts it. -/
theorem bind_count_missing :
    ¬ AllStates (hostStep 1) ExactWhenIdle VirtHost.started othersTimeline := by
  intro h
  have hexact := h.exec (Option.some_get othersTimeline_runs).symm (by decide)
  have hserving := hexact.granted ⟨letterName 0, 0, .qotTimelineLocal⟩
    ⟨0, { letterMsg .timelineCreate 0 with
      info := ⟨letterName 0, 0, .qotTimelineLocal⟩ }, by decide, rfl, rfl⟩
  exact absurd hserving.slot (by decide)

end Qot
