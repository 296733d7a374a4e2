import QotStack.Virt.Effects

/-!
# QotStack — the slots of the host daemon

The daemon's table, its counter `tl_count` and the registry of the kernel are kept in step by the
handling of the messages. `SlotInv` says how: a used slot stands for a registered timeline, no two
for the same, and `tl_count` counts them. It survives as long as a create that comes back without an
error made a timeline, nobody removes a timeline the daemon has a slot for, and guests destroy only
such timelines (`SlotSafe`). Then no call of the daemon has an undefined result (`host_defined`).
-/

namespace Qot

open Runs SlotTable

def slotsOf (vtimeline : List TimelineVirt) : List TimelineVirt :=
  used TimelineVirt.index noTimeline vtimeline

def slotIndices (vtimeline : List TimelineVirt) : List Int32 := (slotsOf vtimeline).map (·.index)

/-- Names and indices tell the timelines apart. -/
structure RegSound (k : HostKernel) : Prop where
  nonneg : ∀ i ∈ k.indices, 0 ≤ i
  names : (k.reg.map (·.name)).Nodup
  indices : k.indices.Nodup

/-- The table, the counter and the registry agree. -/
structure SlotsSound (k : HostKernel) (vtimeline : List TimelineVirt) (tlCount : Nat) : Prop where
  reg : RegSound k
  length : vtimeline.length = maxTimelines
  distinct : (slotIndices vtimeline).Nodup
  registered : ∀ i ∈ slotIndices vtimeline, i ∈ k.indices
  tlCount : tlCount = (slotIndices vtimeline).length

/-- The timeline has a slot, and its name leads to it. -/
structure Serving (k : HostKernel) (vtimeline : List TimelineVirt) (t : QotTimeline) : Prop where
  slot : t.index ∈ slotIndices vtimeline
  found : qotTimelineFind k.reg t.name = some t

/-- What holds between two calls for one message. -/
def InFlight (me : Int32) (s : VirtHost) : Prop :=
  match s.pc with
  | .idle => True
  | .creating _ msg => msg.msgtype = .timelineCreate ∧ s.tlCount < maxTimelines
  | .joining _ msg => msg.msgtype = .timelineCreate ∧ Serving s.kernel s.vtimeline msg.info
      ∧ s.kernel.own me msg.info.index = none
  | .updating _ msg => msg.msgtype = .timelineUpdate
  | .leaving _ msg => msg.msgtype = .timelineDestroy ∧ Serving s.kernel s.vtimeline msg.info
  | .destroying _ msg _ => msg.msgtype = .timelineDestroy ∧ Serving s.kernel s.vtimeline msg.info

structure SlotInv (me : Int32) (s : VirtHost) : Prop where
  sound : SlotsSound s.kernel s.vtimeline s.tlCount
  inFlight : InFlight me s

/-- A removal by another program spares the timelines of the daemon, or is refused. -/
def SparesSlots (s : VirtHost) : AppOp → Prop
  | .removeTimeline name adminFlag =>
    match qotTimelineFind s.kernel.reg name with
    | none => True
    | some t => t.index ∈ slotIndices s.vtimeline →
        (s.kernel.tables t.index).root ≠ [] ∧ adminFlag = false
  | _ => True

/-- A create finds the name unused, as the lookup before it did. -/
def StillAbsent (s : VirtHost) : Prop :=
  match s.pc with
  | .creating _ msg => qotTimelineFind s.kernel.reg msg.info.name = none
  | _ => True

/-- A DESTROY of a timeline that is there is for one with a slot: the daemon reads its count without
asking whether there is one. -/
abbrev DestroysSlot (s : VirtHost) (msg : QotVirtmsg) : Prop :=
  msg.msgtype = .timelineDestroy → ∀ t ∈ qotTimelineFind s.kernel.reg msg.info.name,
    t.index ∈ slotIndices s.vtimeline

def SlotSafe (s : VirtHost) : DaemonOp → Prop
  | .receive _ msg _ => DestroysSlot s msg
  | .create _ _ => StillAbsent s
  | .app op => SparesSlots s op
  | _ => True

instance (s : VirtHost) (op : AppOp) : Decidable (SparesSlots s op) := by
  unfold SparesSlots
  split
  · split <;> infer_instance
  · infer_instance

instance (s : VirtHost) : Decidable (StillAbsent s) := by
  unfold StillAbsent
  split <;> infer_instance

instance (s : VirtHost) (op : DaemonOp) : Decidable (SlotSafe s op) := by
  unfold SlotSafe
  split <;> infer_instance

/-! ## The table -/

theorem ne_noTimeline_of_nonneg {i : Int32} (h : 0 ≤ i) : i ≠ noTimeline := by
  intro hi
  rw [hi] at h
  exact absurd h (by decide)

theorem slotIndices_incrementBindCount (vtimeline : List TimelineVirt) (t : QotTimeline) :
    slotIndices (incrementBindCount vtimeline t) = slotIndices vtimeline :=
  map_key_used_modifyAt fun _ => rfl

theorem slotIndices_decrementBindCount (vtimeline : List TimelineVirt) (t : QotTimeline) :
    slotIndices (decrementBindCount vtimeline t) = slotIndices vtimeline :=
  map_key_used_modifyAt fun _ => rfl

theorem slotIndices_stopThread (vtimeline : List TimelineVirt) (t : QotTimeline) :
    slotIndices (stopThread vtimeline t) = slotIndices vtimeline :=
  map_key_used_modifyAt fun _ => rfl

variable {vtimeline : List TimelineVirt} {t : QotTimeline} {s : VirtHost} {name : CName}
  {k k' : HostKernel} {me : Int32}

theorem mem_slotIndices {i : Int32} :
    i ∈ slotIndices vtimeline ↔ ∃ v ∈ slotsOf vtimeline, v.index = i := by
  simp [slotIndices]

/-- A count that is read belongs to a slot in use. -/
theorem getBindCount_slot {n : Int32} (hindex : t.index ≠ noTimeline)
    (h : getBindCount vtimeline t = some n) :
    ∃ v ∈ slotsOf vtimeline, v.index = t.index ∧ v.bindCount = n := by
  obtain ⟨v, hfind, rfl⟩ := Option.map_eq_some_iff.mp h
  have hv : v.index = t.index := by simpa using List.find?_some hfind
  exact ⟨v, mem_used.mpr ⟨List.mem_of_find?_eq_some hfind, hv ▸ hindex⟩, hv, rfl⟩

/-- Taking a slot for a timeline that has none adds it with a count of one. -/
theorem takeSlot_cases {s' : VirtHost} {guest : Nat} {msg : QotVirtmsg}
    (h : s.takeSlot guest msg = some s') (hindex : msg.info.index ≠ noTimeline)
    (hnew : msg.info.index ∉ slotIndices s.vtimeline) :
    ∃ vtimeline, vtimeline.length = s.vtimeline.length
      ∧ (slotsOf vtimeline).Perm (⟨msg.info.index, 1, true⟩ :: slotsOf s.vtimeline)
      ∧ s' = { s with
        tlCount := if s.tlCount < maxTimelines then s.tlCount + 1 else s.tlCount
        vtimeline := vtimeline
        pc := .joining guest msg
        history := .taken msg.info.index :: s.history } := by
  simp only [VirtHost.takeSlot, addTimelineToList] at h
  obtain ⟨tlId, hfree, rfl⟩ := Option.map_eq_some_iff.mp h
  refine ⟨_, ?_, ?_, rfl⟩
  · rw [incrementBindCount, length_modifyAt, length_modifyAt]
  · have hexists : ∃ v ∈ s.vtimeline, v.index = noTimeline := by
      obtain ⟨hlt, hv, -⟩ := List.findIdx?_eq_some_iff_getElem.mp hfree
      exact ⟨s.vtimeline[tlId], List.getElem_mem hlt, by simpa using hv⟩
    have hclaim : (slotsOf (modifyAt TimelineVirt.index noTimeline
        (fun _ => ⟨msg.info.index, 0, true⟩) s.vtimeline)).Perm
          (⟨msg.info.index, 0, true⟩ :: slotsOf s.vtimeline) :=
      used_claim (fun _ => rfl) hindex hexists
    obtain ⟨v, rest, hv, hslots, hslots'⟩ := used_modifyAt TimelineVirt.index
      (f := fun v => { v with bindCount := v.bindCount + 1 }) hindex (fun _ => rfl)
      ⟨⟨msg.info.index, 0, true⟩, hclaim.mem_iff.mpr List.mem_cons_self, rfl⟩
    -- the entry that is counted up is the new one, since no other has this index
    have hv_eq : v = ⟨msg.info.index, 0, true⟩ := by
      rcases List.mem_cons.mp ((hslots.symm.trans hclaim).subset List.mem_cons_self) with hv' | hv'
      · exact hv'
      · exact absurd (mem_slotIndices.mpr ⟨v, hv', hv⟩) hnew
    subst hv_eq
    have hrest : rest.Perm (slotsOf s.vtimeline) := (hslots.symm.trans hclaim).cons_inv
    exact hslots'.trans (hrest.cons _)

/-- Freeing the slot of a timeline. -/
theorem removeTimelineFromList_cases (hindex : t.index ≠ noTimeline)
    (h : t.index ∈ slotIndices vtimeline) :
    ∃ v rest, v.index = t.index ∧ (slotsOf vtimeline).Perm (v :: rest)
      ∧ (slotsOf (removeTimelineFromList vtimeline t)).Perm rest :=
  used_release hindex (fun _ => rfl) (mem_slotIndices.mp h)

theorem slotIndices_removeTimelineFromList (hindex : t.index ≠ noTimeline)
    (h : t.index ∈ slotIndices vtimeline) :
    (slotIndices vtimeline).Perm (t.index :: slotIndices (removeTimelineFromList vtimeline t)) := by
  obtain ⟨v, rest, hv, hslots, hslots'⟩ := removeTimelineFromList_cases hindex h
  have hindices : (slotIndices vtimeline).Perm (v.index :: rest.map (·.index)) := hslots.map _
  have hindices' : (slotIndices (removeTimelineFromList vtimeline t)).Perm (rest.map (·.index)) :=
    hslots'.map _
  rw [← hv]
  exact hindices.trans (hindices'.symm.cons _)

/-! ## The registry under the table -/

theorem qotTimelineFind_mem {reg : List QotTimeline} (h : qotTimelineFind reg name = some t) :
    t ∈ reg ∧ t.name = name :=
  ⟨List.mem_of_find?_eq_some h, by simpa using List.find?_some h⟩

theorem qotTimelineFind_erase {reg : List QotTimeline} (h : t.name ≠ name) :
    qotTimelineFind (reg.erase t) name = qotTimelineFind reg name := by
  induction reg with
  | nil => rfl
  | cons u reg ih =>
    by_cases hu : u = t
    · subst hu
      simp [qotTimelineFind, h]
    · rw [List.erase_cons_tail (by simpa using hu)]
      simp only [qotTimelineFind, List.find?_cons] at ih ⊢
      rw [ih]

theorem mem_indices_erase {i : Int32} (hi : i ∈ k.indices) (hne : i ≠ t.index) :
    i ∈ HostKernel.indices { k with reg := k.reg.erase t } := by
  obtain ⟨u, hu, rfl⟩ := List.mem_map.mp hi
  have hut : u ≠ t := fun h => hne (h ▸ rfl)
  exact List.mem_map_of_mem ((List.mem_erase_of_ne hut).mpr hu)

theorem indices_erase_subset (k : HostKernel) (t : QotTimeline) :
    ∀ i ∈ HostKernel.indices { k with reg := k.reg.erase t }, i ∈ k.indices := by
  intro i hi
  obtain ⟨u, hu, rfl⟩ := List.mem_map.mp hi
  exact List.mem_map_of_mem (List.mem_of_mem_erase hu)

theorem RegSound.find (h : RegSound k) (ht : t ∈ k.reg) :
    qotTimelineFind k.reg t.name = some t := by
  cases hfind : qotTimelineFind k.reg t.name with
  | none => simpa using List.find?_eq_none.mp hfind t ht
  | some u =>
    obtain ⟨hu, hname⟩ := qotTimelineFind_mem hfind
    rw [List.inj_on_of_nodup_map h.names hu ht hname]

section
variable {k k' : HostKernel} {vtimeline vtimeline' : List TimelineVirt} {n : Nat} {me : Int32}
  {new t : QotTimeline} {name : CName}

theorem RegSound.of_registered (h : RegSound k) (hreg : Registered me k new k') : RegSound k' := by
  have hnames : (k'.reg.map (·.name)).Perm (new.name :: k.reg.map (·.name)) := hreg.reg.map _
  have hindices : k'.indices.Perm (new.index :: k.indices) := hreg.reg.map _
  refine ⟨fun i hi => ?_, ?_, ?_⟩
  · rcases hreg.mem_indices.mp hi with rfl | hi
    · exact hreg.nonneg
    · exact h.nonneg i hi
  · refine hnames.nodup_iff.mpr (List.nodup_cons.mpr ⟨fun hmem => ?_, h.names⟩)
    obtain ⟨u, hu, hname⟩ := List.mem_map.mp hmem
    simpa [hname] using List.find?_eq_none.mp hreg.absent u hu
  · exact hindices.nodup_iff.mpr (List.nodup_cons.mpr ⟨hreg.fresh, h.indices⟩)

theorem RegSound.of_erase (h : RegSound k) (t : QotTimeline) :
    RegSound { k with reg := k.reg.erase t } where
  nonneg i hi := h.nonneg i (indices_erase_subset k t i hi)
  names := h.names.sublist (List.erase_sublist.map _)
  indices := h.indices.sublist (List.erase_sublist.map _)

namespace SlotsSound
variable (h : SlotsSound k vtimeline n)
include h

theorem of_reg_eq (hreg : k'.reg = k.reg) : SlotsSound k' vtimeline n := by
  have hindices : k'.indices = k.indices := by rw [HostKernel.indices, hreg, HostKernel.indices]
  exact { h with
    reg := ⟨hindices ▸ h.reg.nonneg, hreg ▸ h.reg.names, hindices ▸ h.reg.indices⟩
    registered := hindices ▸ h.registered }

theorem of_registered (hreg : Registered me k new k') : SlotsSound k' vtimeline n :=
  { h with
    reg := h.reg.of_registered hreg
    registered := fun i hi => hreg.mem_indices.mpr (Or.inr (h.registered i hi)) }

theorem of_erase (ht : t.index ∉ slotIndices vtimeline) :
    SlotsSound { k with reg := k.reg.erase t } vtimeline n :=
  { h with
    reg := h.reg.of_erase t
    registered := fun i hi => mem_indices_erase (h.registered i hi) fun hit => ht (hit ▸ hi) }

theorem ne_noTimeline {i : Int32} (hi : i ∈ k.indices) : i ≠ noTimeline :=
  ne_noTimeline_of_nonneg (h.reg.nonneg i hi)

theorem ne_noTimeline_of_find (ht : qotTimelineFind k.reg name = some t) : t.index ≠ noTimeline :=
  h.ne_noTimeline (List.mem_map_of_mem (qotTimelineFind_mem ht).1)

/-- Rewriting entries under their index. -/
theorem of_slotIndices_eq (hlength : vtimeline'.length = vtimeline.length)
    (hindices : slotIndices vtimeline' = slotIndices vtimeline) : SlotsSound k vtimeline' n where
  reg := h.reg
  length := hlength.trans h.length
  distinct := hindices ▸ h.distinct
  registered := hindices ▸ h.registered
  tlCount := hindices ▸ h.tlCount

theorem take {v : TimelineVirt} (hroom : n < maxTimelines)
    (hreg : v.index ∈ k.indices) (hnew : v.index ∉ slotIndices vtimeline)
    (hlength : vtimeline'.length = vtimeline.length)
    (hslots : (slotsOf vtimeline').Perm (v :: slotsOf vtimeline)) :
    SlotsSound k vtimeline' (if n < maxTimelines then n + 1 else n) := by
  have hindices : (slotIndices vtimeline').Perm (v.index :: slotIndices vtimeline) := hslots.map _
  refine ⟨h.reg, hlength.trans h.length, ?_, ?_, ?_⟩
  · exact hindices.nodup_iff.mpr (List.nodup_cons.mpr ⟨hnew, h.distinct⟩)
  · intro i hi
    rcases List.mem_cons.mp (hindices.subset hi) with rfl | hi
    · exact hreg
    · exact h.registered i hi
  · rw [if_pos hroom, hindices.length_eq, List.length_cons, h.tlCount]

theorem slotIndices_release (ht : Serving k vtimeline t) :
    (slotIndices vtimeline).Perm (t.index :: slotIndices (removeTimelineFromList vtimeline t)) :=
  slotIndices_removeTimelineFromList (h.ne_noTimeline (h.registered _ ht.slot)) ht.slot

/-- Freeing a slot, whether its timeline is gone from the registry or not. -/
theorem release (ht : Serving k vtimeline t)
    (hk' : k' = k ∨ ∃ u, qotTimelineFind k.reg t.name = some u
      ∧ k' = { k with reg := k.reg.erase u }) :
    SlotsSound k' (removeTimelineFromList vtimeline t) (n - 1) := by
  have hindices := h.slotIndices_release ht
  obtain ⟨hfresh, hdistinct⟩ := List.nodup_cons.mp (hindices.nodup_iff.mp h.distinct)
  have hfreed : SlotsSound k (removeTimelineFromList vtimeline t) (n - 1) := by
    refine ⟨h.reg, ?_, hdistinct, fun i hi => ?_, ?_⟩
    · rw [removeTimelineFromList, length_modifyAt, h.length]
    · exact h.registered i (hindices.symm.subset (List.mem_cons_of_mem _ hi))
    · rw [h.tlCount, hindices.length_eq, List.length_cons, Nat.add_sub_cancel]
  rcases hk' with rfl | ⟨u, hu, rfl⟩
  · exact hfreed
  · -- what the name leads to is the timeline of the slot
    cases hu.symm.trans ht.found
    exact hfreed.of_erase hfresh

theorem mem_slotIndices_release (ht : Serving k vtimeline t) {i : Int32} :
    i ∈ slotIndices (removeTimelineFromList vtimeline t)
      ↔ i ∈ slotIndices vtimeline ∧ i ≠ t.index := by
  have hindices := h.slotIndices_release ht
  obtain ⟨hfresh, -⟩ := List.nodup_cons.mp (hindices.nodup_iff.mp h.distinct)
  rw [hindices.mem_iff, List.mem_cons]
  refine ⟨fun hi => ⟨Or.inr hi, fun hit => hfresh (hit ▸ hi)⟩, fun hi => ?_⟩
  exact hi.1.resolve_left hi.2

end SlotsSound

theorem Serving.of_find (hslot : t.index ∈ slotIndices vtimeline)
    (hfind : qotTimelineFind k.reg name = some t) : Serving k vtimeline t :=
  ⟨hslot, (qotTimelineFind_mem hfind).2.symm ▸ hfind⟩

theorem Serving.of_reg_eq (h : Serving k vtimeline t) (hreg : k'.reg = k.reg) :
    Serving k' vtimeline t :=
  ⟨h.slot, hreg ▸ h.found⟩

theorem Serving.of_registered (h : Serving k vtimeline t) (hreg : Registered me k new k') :
    Serving k' vtimeline t := by
  refine ⟨h.slot, ?_⟩
  have hne : t.name ≠ new.name := by
    intro hname
    have hfound := h.found
    rw [hname, hreg.absent] at hfound
    simp at hfound
  rw [hreg.found, if_neg hne]
  exact h.found

theorem Serving.of_erase {u : QotTimeline} (h : Serving k vtimeline t)
    (hu : qotTimelineFind k.reg name = some u) (hslot : u.index ∉ slotIndices vtimeline) :
    Serving { k with reg := k.reg.erase u } vtimeline t := by
  refine ⟨h.slot, ?_⟩
  have hne : u.name ≠ t.name := by
    intro hname
    have hsame : u = t := by
      rw [← (qotTimelineFind_mem hu).2, hname] at hu
      exact Option.some.inj (hu.symm.trans h.found)
    exact hslot (hsame ▸ h.slot)
  rw [qotTimelineFind_erase hne]
  exact h.found

end

/-! ## The steps -/

theorem InFlight.of_kernel (h : InFlight me s)
    (hserving : ∀ t, Serving s.kernel s.vtimeline t → Serving k' s.vtimeline t)
    (hown : ∀ i ∈ slotIndices s.vtimeline, k'.own me i = s.kernel.own me i) :
    InFlight me { s with kernel := k' } := by
  simp only [InFlight] at h ⊢
  cases hpc : s.pc with
  | idle => trivial
  | creating guest msg =>
    simp only [hpc] at h
    exact h
  | joining guest msg =>
    simp only [hpc] at h
    exact ⟨h.1, hserving _ h.2.1, (hown _ h.2.1.slot).trans h.2.2⟩
  | updating guest msg =>
    simp only [hpc] at h
    exact h
  | leaving guest msg =>
    simp only [hpc] at h
    exact ⟨h.1, hserving _ h.2⟩
  | destroying guest msg ok =>
    simp only [hpc] at h
    exact ⟨h.1, hserving _ h.2⟩

theorem SparesSlots.not_slot {adminFlag : Bool} (h : SparesSlots s (.removeTimeline name adminFlag))
    (hfind : qotTimelineFind s.kernel.reg name = some t)
    (hfree : (s.kernel.tables t.index).root = [] ∨ adminFlag = true) :
    t.index ∉ slotIndices s.vtimeline := by
  intro hmem
  simp only [SparesSlots, hfind] at h
  obtain ⟨hbound, hadmin⟩ := h hmem
  rcases hfree with hempty | hflag
  · exact hbound hempty
  · simp [hadmin] at hflag

/-- The slot of a timeline just created is new. -/
theorem SlotsSound.takeSlot_registered {s' : VirtHost} {guest : Nat} {msg : QotVirtmsg}
    {new : QotTimeline} (h : SlotsSound s.kernel s.vtimeline s.tlCount)
    (hreg : Registered me s.kernel new k')
    (htake : { s with kernel := k' }.takeSlot guest { msg with info := new } = some s') :
    new.index ∉ slotIndices s.vtimeline ∧ ∃ vtimeline, vtimeline.length = s.vtimeline.length
      ∧ (slotsOf vtimeline).Perm (⟨new.index, 1, true⟩ :: slotsOf s.vtimeline)
      ∧ s' =
        { kernel := k'
          tlCount := if s.tlCount < maxTimelines then s.tlCount + 1 else s.tlCount
          vtimeline := vtimeline
          pc := .joining guest { msg with info := new }
          history := .taken new.index :: s.history } := by
  have hslot : new.index ∉ slotIndices s.vtimeline :=
    fun hmem => hreg.fresh (h.registered _ hmem)
  exact ⟨hslot, takeSlot_cases htake (ne_noTimeline_of_nonneg hreg.nonneg) hslot⟩

/-- The timelines of the daemon outlive what other programs do. -/
theorem AppEffect.serving {op : AppOp} (h : AppEffect me s.kernel op k') (hg : SparesSlots s op) :
    ∀ t, Serving s.kernel s.vtimeline t → Serving k' s.vtimeline t := by
  intro t ht
  cases h with
  | kept hkept => exact ht.of_reg_eq hkept.reg
  | registered new hreg => exact ht.of_registered hreg
  | removed name adminFlag u hop hfind hfree hk' =>
    subst hop hk'
    exact ht.of_erase hfind (hg.not_slot hfind hfree)

namespace SlotInv
variable {me : Int32} {s : VirtHost} (h : SlotInv me s)
include h

/-! What is known at each call. -/

variable {guest : Nat} {msg : QotVirtmsg} {s' : VirtHost}

theorem creating (hpc : s.pc = .creating guest msg) :
    msg.msgtype = .timelineCreate ∧ s.tlCount < maxTimelines := by
  simpa only [InFlight, hpc] using h.inFlight

theorem joining (hpc : s.pc = .joining guest msg) :
    msg.msgtype = .timelineCreate ∧ Serving s.kernel s.vtimeline msg.info
      ∧ s.kernel.own me msg.info.index = none := by
  simpa only [InFlight, hpc] using h.inFlight

theorem updating (hpc : s.pc = .updating guest msg) : msg.msgtype = .timelineUpdate := by
  simpa only [InFlight, hpc] using h.inFlight

theorem leaving (hpc : s.pc = .leaving guest msg) :
    msg.msgtype = .timelineDestroy ∧ Serving s.kernel s.vtimeline msg.info := by
  simpa only [InFlight, hpc] using h.inFlight

theorem destroying {ok : Bool} (hpc : s.pc = .destroying guest msg ok) :
    msg.msgtype = .timelineDestroy ∧ Serving s.kernel s.vtimeline msg.info := by
  simpa only [InFlight, hpc] using h.inFlight

theorem app {op : AppOp} {k' : HostKernel} (hg : SparesSlots s op)
    (heffect : AppEffect me s.kernel op k') : SlotInv me { s with kernel := k' } := by
  have hserving := heffect.serving hg
  cases heffect with
  | kept hkept =>
    exact ⟨h.sound.of_reg_eq hkept.reg,
      h.inFlight.of_kernel hserving fun i hi => hkept.own i (h.sound.registered i hi)⟩
  | registered new hreg =>
    exact ⟨h.sound.of_registered hreg,
      h.inFlight.of_kernel hserving fun i hi => hreg.own i (h.sound.registered i hi)⟩
  | removed name adminFlag t hop hfind hfree hk' =>
    subst hop hk'
    exact ⟨h.sound.of_erase (hg.not_slot hfind hfree), h.inFlight.of_kernel hserving fun _ _ => rfl⟩

theorem receive {copy : UserCopy} (hreceived : Received s guest msg copy s') : SlotInv me s' := by
  cases hreceived with
  | counted t htype hfind =>
    exact ⟨h.sound.of_slotIndices_eq length_modifyAt
      (slotIndices_incrementBindCount _ t), trivial⟩
  | absent htype hroom hmissed => exact ⟨h.sound, htype, hroom⟩
  | discounted t n htype hfind hcount hn =>
    exact ⟨h.sound.of_slotIndices_eq length_modifyAt
      (slotIndices_decrementBindCount _ t), trivial⟩
  | last t htype hfind hcount =>
    have hindices : slotIndices (stopThread (decrementBindCount s.vtimeline t) t)
        = slotIndices s.vtimeline :=
      (slotIndices_stopThread _ t).trans (slotIndices_decrementBindCount _ t)
    obtain ⟨v, hv, hvi, -⟩ := getBindCount_slot (h.sound.ne_noTimeline_of_find hfind) hcount
    have hslot : t.index ∈ slotIndices (stopThread (decrementBindCount s.vtimeline t) t) := by
      rw [slotIndices_stopThread]
      exact mem_slotIndices.mpr ⟨v, hv, hvi⟩
    exact ⟨h.sound.of_slotIndices_eq (length_modifyAt.trans length_modifyAt) hindices, htype,
      Serving.of_find hslot hfind⟩
  | updating t htype hfind => exact ⟨h.sound, htype⟩
  | refused hmissed => exact ⟨h.sound, trivial⟩

theorem create {copy : UserCopy} {svc : CreateServices} (hpc : s.pc = .creating guest msg)
    (hg : StillAbsent s) (hcreated : Created me s guest msg copy svc s') : SlotInv me s' := by
  have hflight := h.creating hpc
  simp only [StillAbsent, hpc] at hg
  cases hcreated with
  | failed k' hk' =>
    rcases hk' with hkept | hreg
    · exact ⟨h.sound.of_reg_eq hkept.reg, trivial⟩
    · exact ⟨h.sound.of_registered hreg, trivial⟩
  | existed k' s' hcopy hfind hkept htake => simp [hg] at hfind
  | made new k' s' hnew hreg htake =>
    obtain ⟨hslot, vtimeline, hlength, hslots, rfl⟩ := h.sound.takeSlot_registered hreg htake
    have hindex : new.index ∈ k'.indices := hreg.mem_indices.mpr (Or.inl rfl)
    refine ⟨(h.sound.of_registered hreg).take hflight.2 hindex hslot hlength hslots,
      hflight.1, ⟨?_, ?_⟩, hreg.unbound⟩
    · exact mem_slotIndices.mpr ⟨_, hslots.mem_iff.mpr List.mem_cons_self, rfl⟩
    · show qotTimelineFind k'.reg new.name = some new
      rw [hreg.found, if_pos rfl]

/-- **A step that is safe for the slots** keeps the table, the counter and the registry in step. -/
theorem step {op : DaemonOp} (hg : SlotSafe s op) (hstep : hostStep me s op = some s') :
    SlotInv me s' := by
  cases hostStep_effect hstep with
  | receive guest msg copy s' hpc hreceived => exact h.receive hreceived
  | create guest msg copy svc s' hpc hcreated => exact h.create hpc hg hcreated
  | join _ _ _ _ _ _ s' _ _ hrebound | update _ _ _ _ s' _ hrebound =>
    cases hrebound with
    | refused => exact ⟨h.sound, trivial⟩
    | bound k' hbound => exact ⟨h.sound.of_reg_eq hbound.reg, trivial⟩
  | leave guest msg opened copied hpc =>
    obtain ⟨k', ok, hreg, -, heq⟩ := leave_cases me s guest msg opened copied
    obtain ⟨htype, hserving⟩ := h.leaving hpc
    rw [heq]
    exact ⟨h.sound.of_reg_eq hreg, htype, hserving.of_reg_eq hreg⟩
  | destroy guest msg ok copied hpc =>
    cases copied with
    | false =>
      rw [destroy_not_copied]
      exact ⟨h.sound, trivial⟩
    | true =>
      obtain ⟨k', hk', heq⟩ := destroy_cases s guest msg ok
      rw [heq]
      exact ⟨h.sound.release (h.destroying hpc).2 hk', trivial⟩
  | app op k' heffect => exact h.app hg heffect

end SlotInv

theorem slotInv_started (me : Int32) : SlotInv me VirtHost.started := by
  refine ⟨⟨⟨?_, List.nodup_nil, List.nodup_nil⟩, rfl, ?_, ?_, ?_⟩, trivial⟩
  · intro i hi
    simp [VirtHost.started, HostKernel.indices] at hi
  · decide
  · have hnone : slotIndices VirtHost.started.vtimeline = [] := by decide
    intro i hi
    rw [hnone] at hi
    simp at hi
  · decide

/-! ## Nothing undefined

The C functions return uninitialised values where a timeline has no slot, or none is free; such a
step of the model is `none`. -/

/-- The daemon is at this call; an index that is drawn is free, and another program is another
process. -/
def Due (me : Int32) (s : VirtHost) : DaemonOp → Prop
  | .receive _ _ _ => s.pc = .idle
  | .create _ svc =>
    (∃ guest msg, s.pc = .creating guest msg) ∧ svc.chdevRegister ∉ s.kernel.indices
  | .join _ _ _ _ => ∃ guest msg, s.pc = .joining guest msg
  | .update _ _ => ∃ guest msg, s.pc = .updating guest msg
  | .leave _ _ => ∃ guest msg, s.pc = .leaving guest msg
  | .destroy _ => ∃ guest msg ok, s.pc = .destroying guest msg ok
  | .app (.createTimeline _ _ svc) => svc.chdevRegister ∉ s.kernel.indices
  | .app (.bindJoin _ pid _ _) => pid ≠ me
  | .app (.bindLeave _ pid _) => pid ≠ me
  | .app (.bindUpdate _ pid _) => pid ≠ me
  | .app (.removeTimeline _ _) => True

theorem createTimeline_isSome {svc : CreateServices} (h : svc.chdevRegister ∉ k.indices)
    (arg : QotTimeline) (copy : UserCopy) : (k.createTimeline arg copy svc).isSome := by
  simp [HostKernel.createTimeline, h]

theorem appIoctl_isSome {pid : Int32} (h : pid ≠ me) (index : Int32)
    (call : BindingTable → Option BindingTable) : (k.appIoctl me index pid call).isSome := by
  simp [HostKernel.appIoctl, h]

/-- The count of a slot can be read. -/
theorem getBindCount_isSome (h : t.index ∈ slotIndices vtimeline) :
    (getBindCount vtimeline t).isSome := by
  obtain ⟨v, hv, hindex⟩ := mem_slotIndices.mp h
  simp only [getBindCount, Option.isSome_map, List.find?_isSome]
  exact ⟨v, (mem_used.mp hv).1, by simpa using hindex⟩

/-- As long as `tl_count` is below the limit there is a free slot. -/
theorem SlotsSound.exists_free {n : Nat} (h : SlotsSound k vtimeline n) (hroom : n < maxTimelines) :
    ∃ v ∈ vtimeline, v.index = noTimeline := by
  refine SlotTable.exists_free ?_
  have hcount : (slotsOf vtimeline).length = n := by
    rw [h.tlCount, slotIndices, List.length_map]
  rw [h.length]
  exact hcount ▸ hroom

theorem takeSlot_isSome (s : VirtHost) (guest : Nat) (msg : QotVirtmsg)
    (h : ∃ v ∈ s.vtimeline, v.index = noTimeline) : (s.takeSlot guest msg).isSome := by
  simpa [VirtHost.takeSlot, addTimelineToList, List.findIdx?_isSome] using h

section
variable {me : Int32} {s : VirtHost}

theorem receive_isSome {msg : QotVirtmsg} (hg : DestroysSlot s msg) (guest : Nat)
    (copy : UserCopy) : (s.receive guest msg copy).isSome := by
  have hneg : -eacces < 0 := by decide
  simp only [VirtHost.receive]
  rcases qotusrGetTimelineInfo_cases s.kernel.reg msg copy with ⟨t, hfind, hinfo⟩ | ⟨-, hinfo⟩
  · simp only [hinfo, Int.lt_irrefl, if_false]
    split
    · rfl
    · rename_i htype
      have hslot := hg htype t hfind
      rw [← slotIndices_decrementBindCount s.vtimeline t] at hslot
      rw [Option.isSome_map]
      exact getBindCount_isSome hslot
    · rfl
    · rfl
  · simp only [hinfo, hneg, if_true]
    split
    · split <;> rfl
    · rfl
    · rfl
    · rfl

theorem SlotInv.create_isSome (h : SlotInv me s) {guest : Nat} {msg : QotVirtmsg}
    {svc : CreateServices} (hpc : s.pc = .creating guest msg)
    (hfresh : svc.chdevRegister ∉ s.kernel.indices) (copy : UserCopy) :
    (s.create guest msg copy svc).isSome := by
  obtain ⟨⟨retval, info, k'⟩, hcreate⟩ :=
    Option.isSome_iff_exists.mp (createTimeline_isSome hfresh msg.info copy)
  simp only [VirtHost.create, hcreate, Option.bind_some]
  split
  · rfl
  · exact takeSlot_isSome _ guest _ (h.sound.exists_free (h.creating hpc).2)

/-- A step that is due and safe for the slots is defined. -/
theorem SlotInv.defined (h : SlotInv me s) {op : DaemonOp} (hg : SlotSafe s op)
    (hdue : Due me s op) : (hostStep me s op).isSome := by
  cases op with
  | receive guest msg copy =>
    have hpc : s.pc = .idle := hdue
    simpa only [hostStep, hpc] using receive_isSome hg guest copy
  | create copy svc =>
    obtain ⟨⟨guest, msg, hpc⟩, hfresh⟩ := hdue
    simpa only [hostStep, hpc] using h.create_isSome hpc hfresh copy
  | join opened copied alloc copiedBack =>
    obtain ⟨guest, msg, hpc⟩ := hdue
    simp only [hostStep, hpc, Option.isSome_some]
  | update opened copied =>
    obtain ⟨guest, msg, hpc⟩ := hdue
    simp only [hostStep, hpc, Option.isSome_some]
  | leave opened copied =>
    obtain ⟨guest, msg, hpc⟩ := hdue
    simp only [hostStep, hpc, Option.isSome_some]
  | destroy copied =>
    obtain ⟨guest, msg, ok, hpc⟩ := hdue
    simp only [hostStep, hpc, Option.isSome_some]
  | app op =>
    simp only [hostStep, Option.isSome_map]
    cases op with
    | createTimeline arg copy svc =>
      simpa only [HostKernel.appStep, Option.isSome_map] using createTimeline_isSome hdue arg copy
    | removeTimeline name adminFlag => rfl
    | bindJoin index pid msgb alloc => exact appIoctl_isSome hdue index _
    | bindLeave index pid copied => exact appIoctl_isSome hdue index _
    | bindUpdate index pid msgb => exact appIoctl_isSome hdue index _

end

/-- **The daemon reads no uninitialised value** in a run whose steps are `SlotSafe`: every call it
is at has a result. -/
theorem host_defined (me : Int32) (ops : List DaemonOp)
    (h : AllSteps (hostStep me) SlotSafe VirtHost.started ops) :
    AllSteps (hostStep me) (fun s op => Due me s op → (hostStep me s op).isSome)
      VirtHost.started ops :=
  allSteps_of_inv (fun _ _ hs hg hdue => hs.defined hg hdue)
    (fun _ _ _ hs hg hstep => hs.step hg hstep) (slotInv_started me) h

/-! ## A run with two guests -/

/-- A letter, `a` for 0. -/
def letter (i : Nat) : UInt8 := UInt8.ofNat (97 + i % 26)

theorem letter_ne_zero (i : Nat) : letter i ≠ 0 := by
  intro h
  have htoNat : (letter i).toNat = 0 := congrArg UInt8.toNat h
  rw [letter, UInt8.toNat_ofNat'] at htoNat
  omega

/-- A name of one letter. -/
def letterName (i : Nat) : CName :=
  ⟨[letter i], by simp [qotMaxNamelen], by simpa using (letter_ne_zero i).symm⟩

/-- A message of a guest, which has the timeline under the index 7. -/
def letterMsg (msgtype : VirtmsgType) (i : Nat) : QotVirtmsg :=
  ⟨⟨letterName i, 7, .qotTimelineLocal⟩, ⟨⟨0, 1⟩, ⟨⟨0, 1⟩, ⟨0, 1⟩⟩⟩, msgtype⟩

/-- Two guests create a timeline, and both destroy it. -/
def twoGuests : List DaemonOp :=
  [.receive 0 (letterMsg .timelineCreate 0) ⟨true, true⟩,
    .create ⟨true, true⟩ ⟨true, 0⟩, .join true true true true,
    .receive 1 (letterMsg .timelineCreate 0) ⟨true, true⟩,
    .receive 0 (letterMsg .timelineDestroy 0) ⟨true, true⟩,
    .receive 1 (letterMsg .timelineDestroy 0) ⟨true, true⟩,
    .leave true true, .destroy true]

theorem host_defined_two_guests :
    AllSteps (hostStep 1) (fun s op => Due 1 s op → (hostStep 1 s op).isSome) VirtHost.started
      twoGuests :=
  host_defined 1 twoGuests (by decide)

end Qot
