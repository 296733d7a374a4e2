import QotStack.Virt.Slots

/-!
# QotStack — the records shared with the guests

The writer threads of the daemon put the clock parameters of the timelines into memory the guests
can read: an array of `MAX_TIMELINES` records (`write_timeline_params`). The record of a timeline
stands at its *index*, which the kernel draws for all the timelines of the host, those of other
programs too. A guest looks for it at the index it was told in the answer to its CREATE
(`timeline_bind`).

`shmem_records_sound` says that the records lie inside the array, do not overlap and are where the
guests look for them, in every run whose steps are `ShmemSafe`; above all, that the daemon draws
indices below `MAX_TIMELINES`.
-/

namespace Qot

open Runs

/-! ## The offsets -/

/-- `sizeof(tl_clockparams_t)`: seven 64-bit numbers of translation, three lengths of quality. -/
def sizeofClockparams : UInt64 := 7 * 8 + 3 * 16

/-- What a writer thread adds to the address of the mapping; `sizeof` makes it a `size_t`. -/
def hostOffset (index : Int32) : UInt64 := index.toInt64.toUInt64 * sizeofClockparams

/-- Where a guest reads: the same product, in a `__u32`. -/
def guestOffset (index : Int32) : UInt32 :=
  (index.toInt64.toUInt64 * sizeofClockparams).toUInt32

/-- The size of the mapping in bytes. -/
def mappingSize : Nat := maxTimelines * sizeofClockparams.toNat

/-- The record of an index: where it starts, and where it ends. -/
def recordStart (index : Int32) : Nat := (hostOffset index).toNat

def recordEnd (index : Int32) : Nat := recordStart index + sizeofClockparams.toNat

/-- The timelines the guests were told of in answers to CREATE since a slot was taken for an
index. -/
def toldSince (index : Int32) : List HostEvent → List QotTimeline
  | [] => []
  | .taken i :: history => if i = index then [] else toldSince index history
  | .answered _ msg _ :: history =>
    if msg.msgtype = .timelineCreate then msg.info :: toldSince index history
    else toldSince index history

/-- The records lie inside the mapping, apart from each other, and the guests of a timeline look for
its record where it is. -/
structure ShmemSound (s : VirtHost) : Prop where
  inside : ∀ v ∈ slotsOf s.vtimeline, recordEnd v.index ≤ mappingSize
  apart : (slotsOf s.vtimeline).Pairwise fun v w =>
    recordEnd v.index ≤ recordStart w.index ∨ recordEnd w.index ≤ recordStart v.index
  agree : ∀ v ∈ slotsOf s.vtimeline, ∀ t ∈ s.kernel.reg, t.index = v.index →
    ∀ info ∈ toldSince v.index s.history, info.name = t.name →
      (guestOffset info.index).toUInt64 = hostOffset v.index

/-- The lookup before a create does not miss a timeline that is there. -/
abbrev LookupWorks (s : VirtHost) (msg : QotVirtmsg) (copy : UserCopy) : Prop :=
  msg.msgtype = .timelineCreate → qotTimelineFind s.kernel.reg msg.info.name ≠ none →
    copy.fromUser = true ∧ copy.toUser = true

/-- A lookup works; the daemon creates a timeline nobody else created in between, and draws an index
below `MAX_TIMELINES`; nobody else removes a timeline of the daemon. -/
def ShmemSafe (s : VirtHost) : DaemonOp → Prop
  | .receive _ msg copy => LookupWorks s msg copy ∧ DestroysSlot s msg
  | .create _ svc => StillAbsent s ∧ svc.chdevRegister.toInt < maxTimelines
  | .app op => SparesSlots s op
  | _ => True

instance (s : VirtHost) : DecidablePred (ShmemSafe s)
  | .receive .. | .create .. | .join .. | .update .. | .leave .. | .destroy .. | .app .. => by
    delta ShmemSafe; infer_instance

theorem ShmemSafe.slotSafe {s : VirtHost} {op : DaemonOp} (h : ShmemSafe s op) : SlotSafe s op := by
  cases op with
  | receive guest msg copy => exact h.2
  | create copy svc => exact h.1
  | app op => exact h
  | _ => trivial

/-! ## The arithmetic -/

theorem hostOffset_toNat {index : Int32} (h : 0 ≤ index) :
    (hostOffset index).toNat = index.toInt.toNat * sizeofClockparams.toNat := by
  have hnonneg : (0 : Int32).toInt ≤ index.toInt := Int32.le_iff_toInt_le.mp h
  have hbound : index.toInt < 2 ^ 31 := Int32.toInt_lt index
  have hwide : index.toInt64.toInt = index.toInt := Int32.toInt_toInt64 index
  have hunsigned : index.toInt64.toUInt64.toNat = index.toInt.toNat := by
    rw [Int64.toNat_toUInt64_of_le, Int64.toNatClampNeg, hwide]
    rw [Int64.le_iff_toInt_le, hwide]
    exact hnonneg
  have hsize : sizeofClockparams.toNat = 104 := by decide
  rw [hostOffset, UInt64.toNat_mul, hunsigned, hsize]
  omega

/-- Records of different indices do not overlap. -/
theorem records_apart {i j : Int32} (hi : 0 ≤ i) (hj : 0 ≤ j) (hne : i ≠ j) :
    recordEnd i ≤ recordStart j ∨ recordEnd j ≤ recordStart i := by
  have hi' : (0 : Int32).toInt ≤ i.toInt := Int32.le_iff_toInt_le.mp hi
  have hj' : (0 : Int32).toInt ≤ j.toInt := Int32.le_iff_toInt_le.mp hj
  have hne' : i.toInt ≠ j.toInt := fun h => hne (Int32.toInt_inj.mp h)
  have hzero : (0 : Int32).toInt = 0 := rfl
  have hsize : sizeofClockparams.toNat = 104 := by decide
  simp only [recordEnd, recordStart, hostOffset_toNat hi, hostOffset_toNat hj, hsize]
  omega

theorem record_inside {i : Int32} (hi : 0 ≤ i) (hlt : i.toInt < maxTimelines) :
    recordEnd i ≤ mappingSize := by
  have hi' : (0 : Int32).toInt ≤ i.toInt := Int32.le_iff_toInt_le.mp hi
  have hzero : (0 : Int32).toInt = 0 := rfl
  have hsize : sizeofClockparams.toNat = 104 := by decide
  simp only [recordEnd, recordStart, mappingSize, maxTimelines, hostOffset_toNat hi, hsize] at hlt ⊢
  omega

/-- Inside the mapping, cutting the offset to 32 bits loses nothing. -/
theorem guestOffset_eq {i : Int32} (h : recordEnd i ≤ mappingSize) :
    (guestOffset i).toUInt64 = hostOffset i := by
  have hsmall : (hostOffset i).toNat < 2 ^ 32 := by
    have hsize : sizeofClockparams.toNat = 104 := by decide
    simp only [recordEnd, recordStart, mappingSize, maxTimelines, hsize] at h
    omega
  have hcut : (guestOffset i).toUInt64 = (hostOffset i).toUInt32.toUInt64 := rfl
  rw [hcut, ← UInt64.toNat_inj]
  simpa using Nat.mod_eq_of_lt hsmall

/-! ## What the guests were told -/

/-- Since the slot of a timeline was taken, every answer that named the timeline gave its index. -/
def ToldIndex (k : HostKernel) (vtimeline : List TimelineVirt) (history : List HostEvent) : Prop :=
  ∀ t ∈ k.reg, t.index ∈ slotIndices vtimeline →
    ∀ info ∈ toldSince t.index history, info.name = t.name → info.index = t.index

section
variable {k k' : HostKernel} {vtimeline vtimeline' : List TimelineVirt} {history : List HostEvent}

namespace ToldIndex
variable (h : ToldIndex k vtimeline history)
include h

theorem answer {guest : Nat} {msg : QotVirtmsg} {ok : Bool}
    (hmsg : msg.msgtype = .timelineCreate → ∀ t ∈ k.reg, t.index ∈ slotIndices vtimeline →
      msg.info.name = t.name → msg.info.index = t.index) :
    ToldIndex k vtimeline (.answered guest msg ok :: history) := by
  intro t ht hslot info hinfo hname
  simp only [toldSince] at hinfo
  split at hinfo
  · rename_i htype
    rcases List.mem_cons.mp hinfo with rfl | hinfo
    · exact hmsg htype t ht hslot hname
    · exact h t ht hslot info hinfo hname
  · exact h t ht hslot info hinfo hname

/-- Fewer slots, and no other timelines in them. -/
theorem mono (hslots : ∀ i ∈ slotIndices vtimeline', i ∈ slotIndices vtimeline)
    (hreg : ∀ t ∈ k'.reg, t.index ∈ slotIndices vtimeline → t ∈ k.reg) :
    ToldIndex k' vtimeline' history := by
  intro t ht hslot
  exact h t (hreg t ht (hslots _ hslot)) (hslots _ hslot)

theorem of_reg_eq (hreg : k'.reg = k.reg) : ToldIndex k' vtimeline history :=
  h.mono (fun _ hi => hi) fun _ ht _ => hreg ▸ ht

/-- Entries rewritten under their index. -/
theorem of_slotIndices_eq
    (hindices : slotIndices vtimeline' = slotIndices vtimeline) : ToldIndex k vtimeline' history :=
  h.mono (fun _ hi => hindices ▸ hi) fun _ ht _ => ht

theorem registered {me : Int32} {n : Nat} {new : QotTimeline} (hsound : SlotsSound k vtimeline n)
    (hreg : Registered me k new k') : ToldIndex k' vtimeline history := by
  refine h.mono (fun _ hi => hi) fun t ht hslot => ?_
  rcases List.mem_cons.mp (hreg.reg.subset ht) with rfl | ht
  · exact absurd (hsound.registered _ hslot) hreg.fresh
  · exact ht

theorem take {v : TimelineVirt} (hslots : (slotsOf vtimeline').Perm (v :: slotsOf vtimeline)) :
    ToldIndex k vtimeline' (.taken v.index :: history) := by
  have hindices : (slotIndices vtimeline').Perm (v.index :: slotIndices vtimeline) := hslots.map _
  intro t ht hslot info hinfo hname
  simp only [toldSince] at hinfo
  split at hinfo
  · simp at hinfo
  · rename_i hne
    rcases List.mem_cons.mp (hindices.subset hslot) with hi | hi
    · exact absurd hi.symm hne
    · exact h t ht hi info hinfo hname

end ToldIndex

end

structure ShmemInv (me : Int32) (s : VirtHost) : Prop where
  slots : SlotInv me s
  below : ∀ i ∈ slotIndices s.vtimeline, i.toInt < maxTimelines
  told : ToldIndex s.kernel s.vtimeline s.history

theorem ShmemInv.sound {me : Int32} {s : VirtHost} (h : ShmemInv me s) : ShmemSound s := by
  have hnonneg : ∀ i ∈ slotIndices s.vtimeline, 0 ≤ i :=
    fun i hi => h.slots.sound.reg.nonneg i (h.slots.sound.registered i hi)
  have hinside : ∀ i ∈ slotIndices s.vtimeline, recordEnd i ≤ mappingSize :=
    fun i hi => record_inside (hnonneg i hi) (h.below i hi)
  refine ⟨fun v hv => hinside _ (List.mem_map_of_mem hv), ?_, ?_⟩
  · have hdistinct : (slotsOf s.vtimeline).Pairwise fun v w => v.index ≠ w.index :=
      List.pairwise_map.mp h.slots.sound.distinct
    refine hdistinct.imp_of_mem fun {v w} hv hw hne => ?_
    exact records_apart (hnonneg _ (List.mem_map_of_mem hv))
      (hnonneg _ (List.mem_map_of_mem hw)) hne
  · intro v hv t ht hindex info hinfo hname
    have hslot : v.index ∈ slotIndices s.vtimeline := List.mem_map_of_mem hv
    have hsame : info.index = t.index := h.told t ht (hindex ▸ hslot) info (hindex ▸ hinfo) hname
    rw [hsame, hindex]
    exact guestOffset_eq (hinside _ hslot)

namespace ShmemInv
variable {me : Int32} {s s' : VirtHost} (h : ShmemInv me s)
include h

theorem told_of_found {t : QotTimeline} (hfind : qotTimelineFind s.kernel.reg t.name = some t) :
    ∀ u ∈ s.kernel.reg, t.name = u.name → t.index = u.index := by
  intro u hu hname
  rw [hname, h.slots.sound.reg.find hu] at hfind
  rw [Option.some.inj hfind]

variable {guest : Nat} {msg : QotVirtmsg}

theorem told_receive {copy : UserCopy} (hg : LookupWorks s msg copy)
    (hreceived : Received s guest msg copy s') :
    ToldIndex s'.kernel s'.vtimeline s'.history
      ∧ slotIndices s'.vtimeline = slotIndices s.vtimeline := by
  cases hreceived with
  | counted t htype hfind =>
    have hindices := slotIndices_incrementBindCount s.vtimeline t
    refine ⟨ToldIndex.answer ?_ fun _ u hu _ hname => ?_, hindices⟩
    · exact h.told.of_slotIndices_eq hindices
    · have hname' := (qotTimelineFind_mem hfind).2
      exact h.told_of_found (hname'.symm ▸ hfind) u hu hname
  | absent htype hroom hmissed => exact ⟨h.told, rfl⟩
  | discounted t n htype hfind hcount hn =>
    have hindices := slotIndices_decrementBindCount s.vtimeline t
    refine ⟨ToldIndex.answer ?_ fun hcreate => ?_, hindices⟩
    · exact h.told.of_slotIndices_eq hindices
    · simp [htype] at hcreate
  | last t htype hfind hcount =>
    have hindices := (slotIndices_stopThread (decrementBindCount s.vtimeline t) t).trans
      (slotIndices_decrementBindCount s.vtimeline t)
    exact ⟨h.told.of_slotIndices_eq hindices, hindices⟩
  | updating t htype hfind => exact ⟨h.told, rfl⟩
  | refused hmissed =>
    refine ⟨h.told.answer fun hcreate u hu _ hname => ?_, rfl⟩
    -- the name leads to a timeline, and the lookup works
    have hfind : qotTimelineFind s.kernel.reg msg.info.name ≠ none := by
      rw [hname, h.slots.sound.reg.find hu]
      simp
    obtain ⟨hfrom, hto⟩ := hg hcreate hfind
    rcases hmissed hcreate with hnone | hfault | hfault
    · exact absurd hnone hfind
    · simp [hfrom] at hfault
    · simp [hto] at hfault

theorem told_create {copy : UserCopy} {svc : CreateServices}
    (hpc : s.pc = .creating guest msg) (hg : StillAbsent s)
    (hlt : svc.chdevRegister.toInt < maxTimelines) (hcreated : Created me s guest msg copy svc s') :
    ToldIndex s'.kernel s'.vtimeline s'.history
      ∧ ∀ i ∈ slotIndices s'.vtimeline, i.toInt < maxTimelines := by
  simp only [StillAbsent, hpc] at hg
  cases hcreated with
  | failed k' hk' =>
    refine ⟨ToldIndex.answer ?_ fun _ u hu hslot hname => ?_, h.below⟩
    · rcases hk' with hkept | hreg
      · exact h.told.of_reg_eq hkept.reg
      · exact h.told.registered h.slots.sound hreg
    · -- a timeline of that name is a new one, and has no slot
      have hu' : u ∈ s.kernel.reg := by
        rcases hk' with hkept | hreg
        · exact hkept.reg ▸ hu
        · rcases List.mem_cons.mp (hreg.reg.subset hu) with rfl | hu
          · exact absurd (h.slots.sound.registered _ hslot) hreg.fresh
          · exact hu
      have hfind := h.slots.sound.reg.find hu'
      rw [← hname, hg] at hfind
      simp at hfind
  | existed k' s' hcopy hfind hkept htake => simp [hg] at hfind
  | made new k' s' hnew hreg htake =>
    obtain ⟨-, vtimeline, -, hslots, rfl⟩ := h.slots.sound.takeSlot_registered hreg htake
    refine ⟨(h.told.registered h.slots.sound hreg).take hslots, fun i hi => ?_⟩
    have hindices : (slotIndices vtimeline).Perm (new.index :: slotIndices s.vtimeline) :=
      hslots.map _
    rcases List.mem_cons.mp (hindices.subset hi) with rfl | hi
    · rw [hnew]
      exact hlt
    · exact h.below i hi

/-- The answer to a message that names a timeline of the daemon. -/
theorem told_serving {k' : HostKernel} (ok : Bool)
    (hserving : Serving s.kernel s.vtimeline msg.info) (hreg : k'.reg = s.kernel.reg) :
    ToldIndex k' s.vtimeline (.answered guest msg ok :: s.history) := by
  refine (h.told.of_reg_eq hreg).answer fun _ u hu _ hname => ?_
  exact h.told_of_found hserving.found u (hreg ▸ hu) hname

theorem step {op : DaemonOp} (hg : ShmemSafe s op) (hstep : hostStep me s op = some s') :
    ShmemInv me s' := by
  have hslots : SlotInv me s' := h.slots.step hg.slotSafe hstep
  cases hostStep_effect hstep with
  | receive guest msg copy s' hpc hreceived =>
    obtain ⟨htold, hindices⟩ := h.told_receive hg.1 hreceived
    exact ⟨hslots, fun i hi => h.below i (hindices ▸ hi), htold⟩
  | create guest msg copy svc s' hpc hcreated =>
    obtain ⟨htold, hbelow⟩ := h.told_create hpc hg.1 hg.2 hcreated
    exact ⟨hslots, hbelow, htold⟩
  | join guest msg _ _ _ _ s' hpc _ hrebound =>
    -- the slot was taken before the join, so the answer names a timeline of the daemon
    obtain ⟨-, hserving, -⟩ := h.slots.joining hpc
    cases hrebound with
    | refused => exact ⟨hslots, h.below, h.told_serving false hserving rfl⟩
    | bound k' hbound => exact ⟨hslots, h.below, h.told_serving _ hserving hbound.reg⟩
  | update guest msg _ _ s' hpc hrebound =>
    -- only the answer to a CREATE tells an index
    have hother : msg.msgtype ≠ .timelineCreate := by simp [h.slots.updating hpc]
    cases hrebound with
    | refused => exact ⟨hslots, h.below, h.told.answer fun hcreate => absurd hcreate hother⟩
    | bound k' hbound =>
      exact ⟨hslots, h.below,
        (h.told.of_reg_eq hbound.reg).answer fun hcreate => absurd hcreate hother⟩
  | leave guest msg opened copied hpc =>
    obtain ⟨k', ok, hreg, -, heq⟩ := leave_cases me s guest msg opened copied
    rw [heq] at hslots ⊢
    exact ⟨hslots, h.below, h.told.of_reg_eq hreg⟩
  | destroy guest msg ok copied hpc =>
    obtain ⟨htype, hserving⟩ := h.slots.destroying hpc
    have hother : msg.msgtype ≠ .timelineCreate := by simp [htype]
    cases copied with
    | false =>
      rw [destroy_not_copied] at hslots ⊢
      exact ⟨hslots, h.below, h.told.answer fun hcreate => absurd hcreate hother⟩
    | true =>
      obtain ⟨k', hk', heq⟩ := destroy_cases s guest msg ok
      rw [heq] at hslots ⊢
      -- the daemon gives up a slot, and the host may lose its timeline: fewer indices to tell
      have hindices : ∀ i ∈ slotIndices (removeTimelineFromList s.vtimeline msg.info),
          i ∈ slotIndices s.vtimeline :=
        fun i hi => ((h.slots.sound.mem_slotIndices_release hserving).mp hi).1
      have htold : ToldIndex k' (removeTimelineFromList s.vtimeline msg.info) s.history := by
        refine h.told.mono hindices fun u hu _ => ?_
        rcases hk' with rfl | ⟨t, -, rfl⟩
        · exact hu
        · exact List.mem_of_mem_erase hu
      exact ⟨hslots, fun i hi => h.below i (hindices i hi),
        htold.answer fun hcreate => absurd hcreate hother⟩
  | app op k' heffect =>
    refine ⟨hslots, h.below, ?_⟩
    cases heffect with
    | kept hkept => exact h.told.of_reg_eq hkept.reg
    | registered new hreg => exact h.told.registered h.slots.sound hreg
    | removed name adminFlag t hop hfind hfree hk' =>
      subst hk'
      exact h.told.mono (fun _ hi => hi) fun u hu _ => List.mem_of_mem_erase hu

end ShmemInv

theorem shmemInv_started (me : Int32) : ShmemInv me VirtHost.started := by
  have hnone : slotIndices VirtHost.started.vtimeline = [] := by decide
  refine ⟨slotInv_started me, ?_, ?_⟩
  · rw [hnone]
    simp
  · intro t ht
    simp [VirtHost.started] at ht

/-- **The shared records.** In every run of the host, with any messages of the guests and any doings
of other programs, whose steps are `ShmemSafe`, every record lies inside the mapping, no two
overlap, and the guests of a timeline look for its record where it is. -/
theorem shmem_records_sound (me : Int32) (ops : List DaemonOp)
    (h : AllSteps (hostStep me) ShmemSafe VirtHost.started ops) :
    AllStates (hostStep me) ShmemSound VirtHost.started ops :=
  allStates_of_inv (fun _ hs => hs.sound) (fun _ _ _ hs hg hstep => hs.step hg hstep)
    (shmemInv_started me) h

theorem shmem_records_sound_twoGuests :
    AllSteps (hostStep 1) ShmemSafe VirtHost.started twoGuests
      ∧ AllStates (hostStep 1) ShmemSound VirtHost.started twoGuests := by
  have hsafe : AllSteps (hostStep 1) ShmemSafe VirtHost.started twoGuests := by decide
  exact ⟨hsafe, shmem_records_sound 1 twoGuests hsafe⟩

/-- Five timelines of other programs, and then one of a guest. -/
def fiveOthersFirst : List DaemonOp :=
  [.app (.createTimeline ⟨letterName 0, 0, .qotTimelineLocal⟩ ⟨true, true⟩ ⟨true, 0⟩),
    .app (.createTimeline ⟨letterName 1, 0, .qotTimelineLocal⟩ ⟨true, true⟩ ⟨true, 1⟩),
    .app (.createTimeline ⟨letterName 2, 0, .qotTimelineLocal⟩ ⟨true, true⟩ ⟨true, 2⟩),
    .app (.createTimeline ⟨letterName 3, 0, .qotTimelineLocal⟩ ⟨true, true⟩ ⟨true, 3⟩),
    .app (.createTimeline ⟨letterName 4, 0, .qotTimelineLocal⟩ ⟨true, true⟩ ⟨true, 4⟩),
    .receive 0 (letterMsg .timelineCreate 5) ⟨true, true⟩,
    .create ⟨true, true⟩ ⟨true, 5⟩, .join true true true true]

theorem fiveOthersFirst_runs :
    (exec (hostStep 1) VirtHost.started fiveOthersFirst).isSome := by decide

/-- The sixth timeline of the host has the index 5, and its record starts where the mapping ends. -/
theorem shmem_record_outside :
    ¬ AllStates (hostStep 1) ShmemSound VirtHost.started fiveOthersFirst := by
  intro h
  have hsound := h.exec (Option.some_get fiveOthersFirst_runs).symm
  exact absurd (hsound.inside ⟨5, 1, true⟩ (by decide)) (by decide)

end Qot
