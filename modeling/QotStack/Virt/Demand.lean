import QotStack.Virt.Counts

/-!
# QotStack — the demand of the daemon and those of its guests

A guest says in its messages what quality of time it demands. The daemon has one binding to a
timeline for all the guests on it, made with the demand of the first CREATE; an UPDATE overwrites
it, whoever it is from, and a CREATE of a timeline that is there leaves it alone.
`daemon_demand_sufficient` says when the demand of the daemon is nevertheless no weaker than that of
any guest, in every run whose steps are `DemandSafe`: a later guest does not ask for more than the
daemon does, nor an update for less than another guest.
-/

namespace Qot

open Runs SlotTable

/-! ## The guests -/

/-- The first demand is at least as tight as the second. -/
abbrev Timequality.AtMost (d d' : Timequality) : Prop :=
  d.resolution.value ≤ d'.resolution.value ∧ d.accuracy.below.value ≤ d'.accuracy.below.value
    ∧ d.accuracy.above.value ≤ d'.accuracy.above.value

theorem Timequality.AtMost.refl (d : Timequality) : d.AtMost d :=
  ⟨Int.le_refl _, Int.le_refl _, Int.le_refl _⟩

/-- The guests that are bound to a timeline, once for each CREATE answered OK and not undone by a
DESTROY answered OK. -/
def liveGuests (name : CName) : List HostEvent → List Nat
  | [] => []
  | .taken _ :: history => liveGuests name history
  | .answered guest msg ok :: history =>
    if ok = true ∧ msg.info.name = name then
      match msg.msgtype with
      | .timelineCreate => guest :: liveGuests name history
      | .timelineDestroy => (liveGuests name history).erase guest
      | _ => liveGuests name history
    else liveGuests name history

/-- The demand of the last CREATE or UPDATE of a guest for a timeline that was answered OK. -/
def latestDemand (guest : Nat) (name : CName) : List HostEvent → Option Timequality
  | [] => none
  | .taken _ :: history => latestDemand guest name history
  | .answered guest' msg ok :: history =>
    if ok = true ∧ msg.info.name = name ∧ guest' = guest
        ∧ (msg.msgtype = .timelineCreate ∨ msg.msgtype = .timelineUpdate) then some msg.demand
    else latestDemand guest name history

/-- A demand is no weaker than the latest of a guest. -/
def Covers (demand : Timequality) (guest : Nat) (name : CName) (history : List HostEvent) : Prop :=
  match latestDemand guest name history with
  | none => True
  | some d => demand.AtMost d

instance (demand : Timequality) (guest : Nat) (name : CName) (history : List HostEvent) :
    Decidable (Covers demand guest name history) := by
  unfold Covers; split <;> infer_instance

/-- The daemon is bound to the timeline, with a demand no weaker than that of any guest on it. -/
def Met (me : Int32) (k : HostKernel) (history : List HostEvent) (t : QotTimeline) : Prop :=
  ∃ b, k.own me t.index = some b ∧ ∀ guest ∈ liveGuests t.name history,
    Covers b.info.demand guest t.name history

/-- For every timeline with a live guest, once the daemon has answered. -/
def DemandsMet (me : Int32) (s : VirtHost) : Prop :=
  s.pc = .idle → ∀ name, liveGuests name s.history ≠ [] →
    ∃ t, qotTimelineFind s.kernel.reg name = some t ∧ Met me s.kernel s.history t

/-- The demand of the daemon is tight enough for a further guest, and a guest that leaves is there,
among no more than an `int` can count. -/
abbrev AdmitsGuest (me : Int32) (s : VirtHost) (guest : Nat) (msg : QotVirtmsg) : Prop :=
  ∀ t ∈ qotTimelineFind s.kernel.reg msg.info.name,
    (msg.msgtype = .timelineCreate →
        ∃ b ∈ s.kernel.own me t.index, b.info.demand.AtMost msg.demand)
      ∧ (msg.msgtype = .timelineDestroy → guest ∈ liveGuests msg.info.name s.history
        ∧ (liveGuests msg.info.name s.history).length < 2 ^ 31)

/-- An update is tight enough for the other guests. -/
def AdmitsUpdate (s : VirtHost) : Prop :=
  match s.pc with
  | .updating guest msg => ∀ g ∈ liveGuests msg.info.name s.history, g ≠ guest →
      Covers msg.demand g msg.info.name s.history
  | _ => True

/-- What the daemon needs for its demand, besides what it needs for its counts. -/
def DemandStep (me : Int32) (s : VirtHost) : DaemonOp → Prop
  | .receive guest msg _ => AdmitsGuest me s guest msg
  | .update _ _ => AdmitsUpdate s
  | .leave opened copied => opened = true ∧ copied = true
  | _ => True

/-- Besides what the counts need: a guest that joins a timeline asks for no more than the daemon
does, an update for no less than the other guests, only a guest that is bound leaves, and the
daemon's own leave works. -/
abbrev DemandSafe (me : Int32) (s : VirtHost) (op : DaemonOp) : Prop :=
  CountSafe s op ∧ DemandStep me s op

instance : DecidablePred AdmitsUpdate
  | ⟨_, _, _, .updating _ _, _⟩ => List.decidableBAll _ _
  | ⟨_, _, _, .idle, _⟩ | ⟨_, _, _, .creating _ _, _⟩ | ⟨_, _, _, .joining _ _, _⟩
  | ⟨_, _, _, .leaving _ _, _⟩ | ⟨_, _, _, .destroying _ _ _, _⟩ => isTrue trivial

instance (me : Int32) (s : VirtHost) : DecidablePred (DemandStep me s)
  | .receive .. | .create .. | .join .. | .update .. | .leave .. | .destroy .. | .app .. => by
    delta DemandStep; infer_instance

/-! ## What an answer changes -/

section
variable {guest : Nat} {msg : QotVirtmsg} {name : CName} {history : List HostEvent} {ok : Bool}

/-- An answer that is not OK, or is about another timeline, binds nobody and sets no demand. -/
theorem liveGuests_of_not (h : ¬ (ok = true ∧ msg.info.name = name)) :
    liveGuests name (.answered guest msg ok :: history) = liveGuests name history :=
  if_neg h

theorem liveGuests_error : liveGuests name (.answered guest msg false :: history)
    = liveGuests name history :=
  liveGuests_of_not fun h => nomatch h.1

theorem liveGuests_other (h : msg.info.name ≠ name) :
    liveGuests name (.answered guest msg ok :: history) = liveGuests name history :=
  liveGuests_of_not fun h' => h h'.2

/-- What an answer that is OK does, by the type of the message. -/
theorem liveGuests_ok : liveGuests msg.info.name (.answered guest msg true :: history)
    = match msg.msgtype with
      | .timelineCreate => guest :: liveGuests msg.info.name history
      | .timelineDestroy => (liveGuests msg.info.name history).erase guest
      | _ => liveGuests msg.info.name history :=
  if_pos ⟨rfl, rfl⟩

theorem liveGuests_create (h : msg.msgtype = .timelineCreate) :
    liveGuests msg.info.name (.answered guest msg true :: history)
      = guest :: liveGuests msg.info.name history := by
  rw [liveGuests_ok, h]

theorem liveGuests_destroy (h : msg.msgtype = .timelineDestroy) :
    liveGuests msg.info.name (.answered guest msg true :: history)
      = (liveGuests msg.info.name history).erase guest := by
  rw [liveGuests_ok, h]

theorem liveGuests_update (h : msg.msgtype = .timelineUpdate) :
    liveGuests name (.answered guest msg ok :: history) = liveGuests name history := by
  by_cases hok : ok = true ∧ msg.info.name = name
  · obtain ⟨rfl, rfl⟩ := hok
    rw [liveGuests_ok, h]
  · exact liveGuests_of_not hok

variable {demand : Timequality} {g : Nat}

/-- An answer that sets no demand of `g` for the timeline. -/
theorem covers_of_not (h : ¬ (ok = true ∧ msg.info.name = name ∧ guest = g
    ∧ (msg.msgtype = .timelineCreate ∨ msg.msgtype = .timelineUpdate))) :
    Covers demand g name (.answered guest msg ok :: history) ↔ Covers demand g name history := by
  have hlatest : latestDemand g name (.answered guest msg ok :: history)
      = latestDemand g name history :=
    if_neg h
  unfold Covers
  rw [hlatest]

theorem covers_error : Covers demand g name (.answered guest msg false :: history)
    ↔ Covers demand g name history :=
  covers_of_not fun h => nomatch h.1

theorem covers_other (h : msg.info.name ≠ name) :
    Covers demand g name (.answered guest msg ok :: history) ↔ Covers demand g name history :=
  covers_of_not fun h' => h h'.2.1

theorem covers_destroy (h : msg.msgtype = .timelineDestroy) :
    Covers demand g name (.answered guest msg ok :: history) ↔ Covers demand g name history := by
  apply covers_of_not
  rintro ⟨-, -, -, htype⟩
  rw [h] at htype
  simp at htype

/-- An answer to another guest does not change the demand of this one. -/
theorem covers_other_guest (h : g ≠ guest) :
    Covers demand g name (.answered guest msg ok :: history) ↔ Covers demand g name history :=
  covers_of_not fun h' => h h'.2.2.1.symm

theorem covers_sender (h : msg.msgtype = .timelineCreate ∨ msg.msgtype = .timelineUpdate) :
    Covers demand guest msg.info.name (.answered guest msg true :: history)
      ↔ demand.AtMost msg.demand := by
  have hlatest : latestDemand guest msg.info.name (.answered guest msg true :: history)
      = some msg.demand := if_pos ⟨rfl, rfl, rfl, h⟩
  unfold Covers
  rw [hlatest]

end

/-! ## Between two calls -/

/-- The guests of a timeline are as many as its answers say, only timelines of the daemon have any,
and their demands are met; except those of a timeline the daemon is just taking down. -/
structure GuestsSound (me : Int32) (k : HostKernel) (vtimeline : List TimelineVirt)
    (history : List HostEvent) (down : QotTimeline → Prop) : Prop where
  tally : ∀ t, Serving k vtimeline t →
    netSince t.index history = (liveGuests t.name history).length
  served : ∀ name, liveGuests name history ≠ [] → ∃ t, Serving k vtimeline t ∧ t.name = name
  met : ∀ t, Serving k vtimeline t → ¬ down t → liveGuests t.name history ≠ [] → Met me k history t

/-- The timeline whose binding the daemon has given up. -/
def Departing (pc : HostPc) (t : QotTimeline) : Prop :=
  match pc with
  | .destroying _ msg _ => msg.info = t
  | _ => False

/-- The guests of the timeline a message is about. -/
def GuestsInFlight (s : VirtHost) : Prop :=
  match s.pc with
  | .joining _ msg => liveGuests msg.info.name s.history = []
  | .updating _ msg => msg.info.index ∈ slotIndices s.vtimeline
      ∨ liveGuests msg.info.name s.history ≠ [] → Serving s.kernel s.vtimeline msg.info
  | .leaving guest msg => liveGuests msg.info.name s.history = [guest]
  | .destroying guest msg ok => ok = true ∧ liveGuests msg.info.name s.history = [guest]
  | _ => True

structure GuestsInv (me : Int32) (s : VirtHost) : Prop where
  guests : GuestsSound me s.kernel s.vtimeline s.history (Departing s.pc)
  inFlight : GuestsInFlight s

structure GuestDemandInv (me : Int32) (s : VirtHost) : Prop extends GuestsInv me s where
  counts : CountInv me s

theorem GuestsInv.demandsMet {me : Int32} {s : VirtHost} (h : GuestsInv me s) :
    DemandsMet me s := by
  intro hpc name hlive
  obtain ⟨t, hserving, rfl⟩ := h.guests.served name hlive
  refine ⟨t, hserving.found, h.guests.met t hserving ?_ hlive⟩
  simp [hpc, Departing]

section
variable {me : Int32} {k k' : HostKernel} {vtimeline vtimeline' : List TimelineVirt} {n : Nat}
  {history : List HostEvent} {down down' : QotTimeline → Prop} {t u : QotTimeline}

/-- Two timelines of the daemon with one index, or with one name, are the same. -/
theorem Serving.eq_of_index (h : SlotsSound k vtimeline n) (ht : Serving k vtimeline t)
    (hu : Serving k vtimeline u) (hindex : t.index = u.index) : t = u :=
  List.inj_on_of_nodup_map h.reg.indices (qotTimelineFind_mem ht.found).1
    (qotTimelineFind_mem hu.found).1 hindex

theorem Serving.eq_of_name (ht : Serving k vtimeline t) (hu : Serving k vtimeline u)
    (hname : t.name = u.name) : t = u := by
  have hfound := ht.found
  rw [hname, hu.found] at hfound
  exact (Option.some.inj hfound).symm

/-- A timeline of the daemon was there before, unless it is new. -/
theorem Serving.of_mem (h : SlotsSound k vtimeline n) (ht : Serving k' vtimeline t)
    (hmem : t ∈ k.reg) : Serving k vtimeline t :=
  ⟨ht.slot, h.reg.find hmem⟩

theorem Met.of_own_eq (h : Met me k history t) (hown : k'.own me t.index = k.own me t.index) :
    Met me k' history t := by
  obtain ⟨b, hb, hcovers⟩ := h
  exact ⟨b, hown.trans hb, hcovers⟩

section
variable (h : GuestsSound me k vtimeline history down)
include h

/-- A change of the kernel that keeps the timelines of the daemon and its bindings to them. -/
theorem GuestsSound.of_kernel (hforth : ∀ t, Serving k vtimeline t → Serving k' vtimeline t)
    (hback : ∀ t, Serving k' vtimeline t → Serving k vtimeline t)
    (hown : ∀ t, Serving k' vtimeline t → ¬ down' t → k'.own me t.index = k.own me t.index)
    (hdown : ∀ t, down t → down' t) : GuestsSound me k' vtimeline history down' where
  tally t ht := h.tally t (hback t ht)
  served name hlive := by
    obtain ⟨t, ht, hname⟩ := h.served name hlive
    exact ⟨t, hforth t ht, hname⟩
  met t ht hnot hlive :=
    (h.met t (hback t ht) (fun hd => hnot (hdown t hd)) hlive).of_own_eq (hown t ht hnot)

theorem GuestsSound.of_slotIndices_eq (hindices : slotIndices vtimeline' = slotIndices vtimeline) :
    GuestsSound me k vtimeline' history down where
  tally t ht := h.tally t (ht.of_slotIndices_eq hindices.symm)
  served name hlive := by
    obtain ⟨t, ht, hname⟩ := h.served name hlive
    exact ⟨t, ht.of_slotIndices_eq hindices, hname⟩
  met t ht := h.met t (ht.of_slotIndices_eq hindices.symm)

/-- An answer that is not OK. -/
theorem GuestsSound.error (guest : Nat) (msg : QotVirtmsg) :
    GuestsSound me k vtimeline (.answered guest msg false :: history) down where
  tally t ht := by
    simp only [netSince, answerWeight_not_ok, Int.add_zero, liveGuests_error]
    exact h.tally t ht
  served name hlive := h.served name (by simpa only [liveGuests_error] using hlive)
  met t ht hnot hlive := by
    simp only [liveGuests_error] at hlive
    obtain ⟨b, hb, hcovers⟩ := h.met t ht hnot hlive
    refine ⟨b, hb, fun g hg => ?_⟩
    rw [liveGuests_error] at hg
    exact covers_error.mpr (hcovers g hg)

end

variable {guest : Nat} {msg : QotVirtmsg}

/-- The answers to another timeline's messages change nothing for this one. -/
theorem Met.of_other {ok : Bool} (h : Met me k history t) (hname : msg.info.name ≠ t.name) :
    Met me k (.answered guest msg ok :: history) t := by
  obtain ⟨b, hb, hcovers⟩ := h
  refine ⟨b, hb, fun g hg => ?_⟩
  rw [liveGuests_other hname] at hg
  exact (covers_other hname).mpr (hcovers g hg)

/-- An UPDATE of a timeline that is none of the daemon's. -/
theorem GuestsSound.update_foreign (h : GuestsSound me k vtimeline history down)
    (htype : msg.msgtype = .timelineUpdate) (hslot : msg.info.index ∉ slotIndices vtimeline)
    (hnone : liveGuests msg.info.name history = []) (hreg : k'.reg = k.reg)
    (hothers : ∀ i, i ≠ msg.info.index → k'.own me i = k.own me i) :
    GuestsSound me k' vtimeline (.answered guest msg true :: history) down where
  tally t ht := by
    simp only [netSince, answerWeight_update htype, liveGuests_update htype, Int.add_zero]
    exact h.tally t (ht.of_reg_eq hreg.symm)
  served name hlive := by
    rw [liveGuests_update htype] at hlive
    obtain ⟨t, ht, hname⟩ := h.served name hlive
    exact ⟨t, ht.of_reg_eq hreg, hname⟩
  met t ht hnot hlive := by
    rw [liveGuests_update htype] at hlive
    have hname : msg.info.name ≠ t.name := fun hname => hlive (hname ▸ hnone)
    have hindex : t.index ≠ msg.info.index := fun hi => hslot (hi ▸ ht.slot)
    exact ((h.met t (ht.of_reg_eq hreg.symm) hnot hlive).of_own_eq (hothers _ hindex)).of_other
      hname

/-- A new timeline has a slot, and no guest yet. -/
theorem GuestsSound.take (h : GuestsSound me k vtimeline history down) (hreg : RegSound k)
    {new : QotTimeline} (hnew : new ∈ k.reg) (hnone : liveGuests new.name history = [])
    {v : TimelineVirt} (hv : v.index = new.index)
    (hslots : (slotsOf vtimeline').Perm (v :: slotsOf vtimeline)) :
    GuestsSound me k vtimeline' (.taken new.index :: history) down := by
  have hindices : (slotIndices vtimeline').Perm (new.index :: slotIndices vtimeline) := by
    rw [← hv]
    exact hslots.map _
  have hback : ∀ t, Serving k vtimeline' t →
      t = new ∨ t.index ≠ new.index ∧ Serving k vtimeline t := by
    intro t ht
    by_cases hindex : t.index = new.index
    · exact Or.inl
        (List.inj_on_of_nodup_map hreg.indices (qotTimelineFind_mem ht.found).1 hnew hindex)
    · exact Or.inr ⟨hindex, (List.mem_cons.mp (hindices.subset ht.slot)).resolve_left hindex,
        ht.found⟩
  refine ⟨fun t ht => ?_, fun name hlive => ?_, fun t ht hnot hlive => ?_⟩
  · rcases hback t ht with rfl | ⟨hindex, ht⟩
    · simp [netSince, liveGuests, hnone]
    · simp only [netSince, if_neg (Ne.symm hindex), liveGuests]
      exact h.tally t ht
  · obtain ⟨t, ht, hname⟩ := h.served name hlive
    exact ⟨t, ⟨hindices.symm.subset (List.mem_cons_of_mem _ ht.slot), ht.found⟩, hname⟩
  · rcases hback t ht with rfl | ⟨hindex, ht⟩
    · exact absurd hnone hlive
    · exact h.met t ht hnot hlive

namespace GuestsSound

variable (msg) (h : GuestsSound me k vtimeline history down) (hsound : SlotsSound k vtimeline n)
  (hserving : Serving k vtimeline msg.info)

include h hsound hserving

/-- A message about a timeline of the daemon is answered OK. A timeline of another name has another
index, and the answer is nothing to it. -/
theorem answered (hreg : k'.reg = k.reg)
    (hothers : ∀ i, i ≠ msg.info.index → k'.own me i = k.own me i)
    (htally : netSince msg.info.index (.answered guest msg true :: history)
      = (liveGuests msg.info.name (.answered guest msg true :: history)).length)
    (hmet : ¬ down msg.info → Met me k' (.answered guest msg true :: history) msg.info) :
    GuestsSound me k' vtimeline (.answered guest msg true :: history) down := by
  have hindex : ∀ t, Serving k' vtimeline t → msg.info.name ≠ t.name → msg.info.index ≠ t.index :=
    fun t ht hname hi =>
      hname (Serving.eq_of_index hsound hserving (ht.of_reg_eq hreg.symm) hi ▸ rfl)
  have hsame : ∀ t, Serving k' vtimeline t → msg.info.name = t.name → msg.info = t :=
    fun t ht hname => hserving.eq_of_name (ht.of_reg_eq hreg.symm) hname
  refine ⟨fun t ht => ?_, fun name hlive => ?_, fun t ht hnot hlive => ?_⟩
  · by_cases hname : msg.info.name = t.name
    · cases hsame t ht hname
      exact htally
    · simp only [netSince, answerWeight_other (hindex t ht hname), Int.add_zero,
        liveGuests_other hname]
      exact h.tally t (ht.of_reg_eq hreg.symm)
  · by_cases hname : msg.info.name = name
    · exact ⟨msg.info, hserving.of_reg_eq hreg, hname⟩
    · rw [liveGuests_other hname] at hlive
      obtain ⟨t, ht, htname⟩ := h.served name hlive
      exact ⟨t, ht.of_reg_eq hreg, htname⟩
  · by_cases hname : msg.info.name = t.name
    · cases hsame t ht hname
      exact hmet hnot
    · rw [liveGuests_other hname] at hlive
      have hmet := h.met t (ht.of_reg_eq hreg.symm) hnot hlive
      exact (hmet.of_own_eq (hothers _ (Ne.symm (hindex t ht hname)))).of_other hname

/-- A CREATE or UPDATE answered OK, after which the daemon is bound with a demand tight enough for
the sender and for the guests that were there. -/
theorem rebind
    (htype : msg.msgtype = .timelineCreate ∨ msg.msgtype = .timelineUpdate) (hreg : k'.reg = k.reg)
    (hothers : ∀ i, i ≠ msg.info.index → k'.own me i = k.own me i) {b : BindingImpl}
    (hb : k'.own me msg.info.index = some b) (hdemand : b.info.demand.AtMost msg.demand)
    (hcovers : ∀ g ∈ liveGuests msg.info.name history, g ≠ guest →
      Covers b.info.demand g msg.info.name history) :
    GuestsSound me k' vtimeline (.answered guest msg true :: history) down := by
  refine h.answered msg hsound hserving hreg hothers ?_ fun _ => ⟨b, hb, fun g hg => ?_⟩
  · have hold := h.tally _ hserving
    rcases htype with htype | htype
    · simp only [netSince, answerWeight_create msg htype, if_true, liveGuests_create htype,
        List.length_cons, hold]
      omega
    · simp only [netSince, answerWeight_update htype, liveGuests_update htype, hold, Int.add_zero]
  · by_cases hsender : g = guest
    · subst hsender
      exact (covers_sender htype).mpr hdemand
    · have hg' : g ∈ liveGuests msg.info.name history := by
        rcases htype with htype | htype
        · rw [liveGuests_create htype] at hg
          exact (List.mem_cons.mp hg).resolve_left hsender
        · rwa [liveGuests_update htype] at hg
      exact (covers_other_guest hsender).mpr (hcovers g hg' hsender)

/-- A guest less. -/
theorem dismiss (htype : msg.msgtype = .timelineDestroy)
    (hguest : guest ∈ liveGuests msg.info.name history) :
    GuestsSound me k vtimeline (.answered guest msg true :: history) down := by
  refine h.answered msg hsound hserving rfl (fun _ _ => rfl) ?_ fun hnot => ?_
  · have hold := h.tally _ hserving
    have hpos : 0 < (liveGuests msg.info.name history).length := List.length_pos_of_mem hguest
    simp only [netSince, answerWeight_destroy msg htype, if_true, liveGuests_destroy htype,
      List.length_erase_of_mem hguest, hold]
    omega
  · obtain ⟨b, hb, hcovers⟩ := h.met _ hserving hnot (List.ne_nil_of_mem hguest)
    refine ⟨b, hb, fun g hg => ?_⟩
    rw [liveGuests_destroy htype] at hg
    exact (covers_destroy htype).mpr (hcovers g (List.mem_of_mem_erase hg))

/-- The last guest of a timeline is gone, and its slot with it. -/
theorem release (htype : msg.msgtype = .timelineDestroy)
    (hlast : liveGuests msg.info.name history = [guest]) (hdown : ∀ t, down t → msg.info = t)
    (hk' : k' = k ∨ ∃ u, qotTimelineFind k.reg msg.info.name = some u
      ∧ k' = { k with reg := k.reg.erase u }) :
    GuestsSound me k' (removeTimelineFromList vtimeline msg.info)
      (.answered guest msg true :: history) down' := by
  have hindices := fun i => hsound.mem_slotIndices_release (i := i) hserving
  have hmem : ∀ t ∈ k'.reg, t ∈ k.reg := by
    intro t ht
    rcases hk' with rfl | ⟨u, -, rfl⟩
    · exact ht
    · exact List.mem_of_mem_erase ht
  have hown : ∀ i, k'.own me i = k.own me i := by
    intro i
    rcases hk' with rfl | ⟨u, -, rfl⟩ <;> rfl
  -- what is left was there before, under another name and another index
  have hback : ∀ t, Serving k' (removeTimelineFromList vtimeline msg.info) t →
      Serving k vtimeline t ∧ msg.info.index ≠ t.index ∧ msg.info.name ≠ t.name := by
    intro t ht
    obtain ⟨hslot, hne⟩ := (hindices t.index).mp ht.slot
    have hold : Serving k vtimeline t :=
      ⟨hslot, hsound.reg.find (hmem t (qotTimelineFind_mem ht.found).1)⟩
    exact ⟨hold, Ne.symm hne, fun hname => hne (hserving.eq_of_name hold hname ▸ rfl)⟩
  refine ⟨fun t ht => ?_, fun name hlive => ?_, fun t ht _ hlive => ?_⟩
  · obtain ⟨hold, hindex, hname⟩ := hback t ht
    simp only [netSince, answerWeight_other hindex, Int.add_zero, liveGuests_other hname]
    exact h.tally t hold
  · by_cases hname : msg.info.name = name
    · subst hname
      simp [liveGuests_destroy htype, hlast] at hlive
    · rw [liveGuests_other hname] at hlive
      obtain ⟨t, ht, rfl⟩ := h.served name hlive
      have hindex : t.index ≠ msg.info.index :=
        fun hi => hname (Serving.eq_of_index hsound hserving ht hi.symm ▸ rfl)
      refine ⟨t, ⟨(hindices t.index).mpr ⟨ht.slot, hindex⟩, ?_⟩, rfl⟩
      rcases hk' with rfl | ⟨u, hu, rfl⟩
      · exact ht.found
      · rw [qotTimelineFind_erase ((qotTimelineFind_mem hu).2 ▸ hname)]
        exact ht.found
  · obtain ⟨hold, hindex, hname⟩ := hback t ht
    rw [liveGuests_other hname] at hlive
    have hnot : ¬ down t := fun hd => hname (hdown t hd ▸ rfl)
    exact ((h.met t hold hnot hlive).of_own_eq (hown _)).of_other hname

end GuestsSound

end

/-! ## The steps -/

/-- One guest, and no other. -/
theorem eq_singleton_of_mem {l : List Nat} {g : Nat} (hg : g ∈ l) (hlength : l.length = 1) :
    l = [g] := by
  obtain ⟨a, rfl⟩ := List.length_eq_one_iff.mp hlength
  rw [List.mem_singleton.mp hg]

namespace GuestDemandInv
variable {me : Int32} {s s' : VirtHost} (h : GuestDemandInv me s)
include h

theorem guests_at {pc : HostPc} (hpc : s.pc = pc) :
    GuestsSound me s.kernel s.vtimeline s.history (Departing pc) :=
  hpc ▸ h.guests

/-- A bind count that falls to zero was that of a single guest. -/
theorem one_guest {t : QotTimeline} (hpc : s.pc = .idle)
    (hserving : Serving s.kernel s.vtimeline t) {guest : Nat}
    (hlive : guest ∈ liveGuests t.name s.history)
    (hlength : (liveGuests t.name s.history).length < 2 ^ 31)
    (hcount : getBindCount (decrementBindCount s.vtimeline t) t = some 0) :
    (liveGuests t.name s.history).length = 1 := by
  have hsound := h.counts.slots.sound
  have hindex := hsound.ne_noTimeline_of_find hserving.found
  have hcounted : Counted (decrementBindCount s.vtimeline t)
      fun i => netSince i s.history + if t.index = i then -1 else 0 := by
    refine h.counts.counted.decrement hsound.distinct hindex hserving.slot fun i => ?_
    simp only [hpc, pending_idle, Int.add_zero]
  obtain ⟨v, hv, hvindex, hvcount⟩ := getBindCount_slot hindex hcount
  have htally := h.guests.tally t hserving
  have hpos := List.length_pos_of_mem hlive
  have hv' := congrArg Int32.toInt (hcounted v hv)
  simp only [hvindex, hvcount, if_true] at hv'
  rw [Int32.toInt_ofInt_of_le (by omega) (by omega), Int32.toInt_zero] at hv'
  omega

variable {guest : Nat} {msg : QotVirtmsg} {k' : HostKernel}

theorem receive {copy : UserCopy} (hpc : s.pc = .idle) (hg : OfDaemon s msg)
    (hg' : AdmitsGuest me s guest msg) (hreceived : Received s guest msg copy s') :
    GuestsInv me s' := by
  have hguests := h.guests_at hpc
  have hsound := h.counts.slots.sound
  cases hreceived with
  | counted t htype hfind =>
    -- the daemon is not bound anew: the guest is served by the demand there is
    obtain ⟨b, hb, hg'⟩ := (hg' t hfind).1 htype
    have hserving := hg.serving (Or.inl htype) hfind
    refine ⟨GuestsSound.of_slotIndices_eq ?_ (slotIndices_incrementBindCount s.vtimeline t),
      trivial⟩
    refine hguests.rebind { msg with info := t } hsound hserving (Or.inl htype) rfl
      (fun _ _ => rfl) hb hg' fun g hlive _ => ?_
    obtain ⟨b', hb', hcovers⟩ := hguests.met t hserving id (List.ne_nil_of_mem hlive)
    cases hb.symm.trans hb'
    exact hcovers g hlive
  | absent htype hroom hmissed => exact ⟨hguests, trivial⟩
  | discounted t n htype hfind hcount hn =>
    have hlive := ((hg' t hfind).2 htype).1
    have hname := (qotTimelineFind_mem hfind).2
    have hserving := hg.serving (Or.inr htype) hfind
    refine ⟨GuestsSound.of_slotIndices_eq ?_ (slotIndices_decrementBindCount s.vtimeline t),
      trivial⟩
    exact hguests.dismiss { msg with info := t } hsound hserving htype (hname.symm ▸ hlive)
  | last t htype hfind hcount =>
    have hname := (qotTimelineFind_mem hfind).2
    obtain ⟨hlive, hlength⟩ := hname ▸ (hg' t hfind).2 htype
    have hserving := hg.serving (Or.inr htype) hfind
    have hindices := (slotIndices_stopThread (decrementBindCount s.vtimeline t) t).trans
      (slotIndices_decrementBindCount s.vtimeline t)
    refine ⟨hguests.of_slotIndices_eq hindices, ?_⟩
    exact eq_singleton_of_mem hlive (h.one_guest hpc hserving hlive hlength hcount)
  | updating t htype hfind =>
    refine ⟨hguests, ?_⟩
    rintro (hslot | hlive)
    · exact Serving.of_find hslot hfind
    · obtain ⟨u, hu, huname⟩ := hguests.served _ hlive
      have hfound := hu.found
      rw [huname.trans (qotTimelineFind_mem hfind).2, hfind] at hfound
      exact Option.some.inj hfound ▸ hu
  | refused hmissed => exact ⟨hguests.error guest msg, trivial⟩

/-- A timeline registered under an unused index is none of the daemon's. -/
theorem guests_registered {new : QotTimeline} (hreg : Registered me s.kernel new k') :
    GuestsSound me k' s.vtimeline s.history (Departing s.pc) := by
  have hsound := h.counts.slots.sound
  have hback : ∀ t, Serving k' s.vtimeline t → Serving s.kernel s.vtimeline t := by
    intro t ht
    refine ht.of_mem hsound ?_
    rcases List.mem_cons.mp (hreg.reg.subset (qotTimelineFind_mem ht.found).1) with rfl | hmem
    · exact absurd (hsound.registered _ ht.slot) hreg.fresh
    · exact hmem
  exact h.guests.of_kernel (fun t ht => ht.of_registered hreg) hback
    (fun t ht _ => hreg.own _ (hsound.registered _ ht.slot)) fun _ hd => hd

theorem guests_kept (hkept : Kept me s.kernel k') :
    GuestsSound me k' s.vtimeline s.history (Departing s.pc) :=
  h.guests.of_kernel (fun _ ht => ht.of_reg_eq hkept.reg) (fun _ ht => ht.of_reg_eq hkept.reg.symm)
    (fun _ ht _ => hkept.own _ (h.counts.slots.sound.registered _ ht.slot)) fun _ hd => hd

theorem create {copy : UserCopy} {svc : CreateServices}
    (hpc : s.pc = .creating guest msg) (hg : StillAbsent s)
    (hcreated : Created me s guest msg copy svc s') : GuestsInv me s' := by
  simp only [StillAbsent, hpc] at hg
  have hsound := h.counts.slots.sound
  cases hcreated with
  | failed k' hk' =>
    refine ⟨GuestsSound.error ?_ guest msg, trivial⟩
    rcases hk' with hkept | hreg
    · have hguests := h.guests_kept hkept
      rwa [hpc] at hguests
    · have hguests := h.guests_registered hreg
      rwa [hpc] at hguests
  | existed k' s' hcopy hfind hkept htake => simp [hg] at hfind
  | made new k' s' hnew hreg htake =>
    obtain ⟨-, vtimeline, -, hslots, rfl⟩ := hsound.takeSlot_registered hreg htake
    have hnone : liveGuests new.name s.history = [] := by
      by_contra hlive
      obtain ⟨t, ht, hname⟩ := h.guests.served _ hlive
      have hfound := ht.found
      rw [hname, hreg.absent] at hfound
      simp at hfound
    have hguests := h.guests_registered hreg
    rw [hpc] at hguests
    have hmem : new ∈ k'.reg := hreg.reg.symm.subset List.mem_cons_self
    exact ⟨hguests.take (hsound.reg.of_registered hreg) hmem hnone rfl hslots, hnone⟩

theorem join (hpc : s.pc = .joining guest msg) :
    GuestsInv me (s.join me guest msg true true true true) := by
  obtain ⟨htype, hserving, hown⟩ := h.counts.slots.joining hpc
  have hnone := h.inFlight
  simp only [GuestsInFlight, hpc] at hnone
  have hguests := h.guests_at hpc
  have hsound := h.counts.slots.sound
  obtain ⟨k', hbound, heq⟩ := join_succeeds guest (hsound.registered _ hserving.slot) hown
  obtain ⟨b, hb, hdemand⟩ := hbound.own
  rw [heq]
  refine ⟨hguests.rebind msg hsound hserving (Or.inl htype) hbound.reg hbound.others hb ?_ ?_,
    trivial⟩
  · rw [hdemand]
    exact .refl msg.demand
  · intro g hlive
    rw [hnone] at hlive
    simp at hlive

theorem update (hpc : s.pc = .updating guest msg) (hg : AdmitsUpdate s)
    (hrebound : Rebound me s guest msg true s') : GuestsInv me s' := by
  have htype := h.counts.slots.updating hpc
  have hflight := h.inFlight
  simp only [GuestsInFlight, hpc] at hflight
  simp only [AdmitsUpdate, hpc] at hg
  have hguests := h.guests_at hpc
  cases hrebound with
  | refused => exact ⟨hguests.error guest msg, trivial⟩
  | bound k' hbound =>
    refine ⟨?_, trivial⟩
    by_cases hours : msg.info.index ∈ slotIndices s.vtimeline
        ∨ liveGuests msg.info.name s.history ≠ []
    · obtain ⟨b, hb, hdemand⟩ := hbound.own
      refine hguests.rebind msg h.counts.slots.sound (hflight hours) (Or.inr htype) hbound.reg
        hbound.others hb ?_ fun g hlive hne => ?_
      · rw [hdemand]
        exact .refl msg.demand
      · rw [hdemand]
        exact hg g hlive hne
    · rw [not_or, not_not] at hours
      exact hguests.update_foreign htype hours.1 hours.2 hbound.reg hbound.others

theorem leave (hpc : s.pc = .leaving guest msg) :
    GuestsInv me (s.leave me guest msg true true) := by
  obtain ⟨-, hserving⟩ := h.counts.slots.leaving hpc
  have hlast := h.inFlight
  simp only [GuestsInFlight, hpc] at hlast
  have hguests := h.guests_at hpc
  have hlive : liveGuests msg.info.name s.history ≠ [] := by simp [hlast]
  obtain ⟨b, hb, -⟩ := hguests.met _ hserving id hlive
  have hleft := leave_succeeds guest (h.counts.slots.sound.registered _ hserving.slot) hb
  obtain ⟨k', ok, hreg, hothers, heq⟩ := leave_cases me s guest msg true true
  rw [heq] at hleft ⊢
  cases hleft
  refine ⟨hguests.of_kernel (fun _ ht => ht.of_reg_eq hreg) (fun _ ht => ht.of_reg_eq hreg.symm)
    (fun t ht hnot => ?_) (fun _ hd => absurd hd id), rfl, hlast⟩
  -- the binding that is gone is that of the timeline being taken down
  refine hothers _ fun hindex => hnot ?_
  exact (Serving.eq_of_index h.counts.slots.sound (ht.of_reg_eq hreg.symm) hserving hindex).symm

theorem destroy {ok : Bool} (hpc : s.pc = .destroying guest msg ok) :
    GuestsInv me (s.destroy guest msg ok true) := by
  obtain ⟨htype, hserving⟩ := h.counts.slots.destroying hpc
  have hlast := h.inFlight
  simp only [GuestsInFlight, hpc] at hlast
  obtain ⟨rfl, hlast⟩ := hlast
  have hguests := h.guests_at hpc
  obtain ⟨k', hk', heq⟩ := destroy_cases s guest msg true
  rw [heq]
  exact ⟨hguests.release msg h.counts.slots.sound hserving htype hlast (fun _ hd => hd) hk',
    trivial⟩

theorem app {op : AppOp} (hg : SparesSlots s op)
    (heffect : AppEffect me s.kernel op k') : GuestsInv me { s with kernel := k' } := by
  have hserving := heffect.serving hg
  refine ⟨?_, ?_⟩
  · cases heffect with
    | kept hkept => exact h.guests_kept hkept
    | registered new hreg => exact h.guests_registered hreg
    | removed name adminFlag u hop hfind hfree hk' =>
      subst hop hk'
      refine h.guests.of_kernel hserving (fun t ht => ?_) (fun _ _ _ => rfl) fun _ hd => hd
      exact ht.of_mem h.counts.slots.sound (List.mem_of_mem_erase (qotTimelineFind_mem ht.found).1)
  · have hflight := h.inFlight
    simp only [GuestsInFlight] at hflight ⊢
    split at hflight
    case h_2 => exact fun hours => hserving _ (hflight hours)
    all_goals exact hflight

theorem step {op : DaemonOp} (hg : DemandSafe me s op)
    (hstep : hostStep me s op = some s') : GuestDemandInv me s' := by
  have hcounts : CountInv me s' := h.counts.step hg.1 hstep
  suffices hs' : GuestsInv me s' from ⟨hs', hcounts⟩
  obtain ⟨hcount, hdemand⟩ := hg
  cases hostStep_effect hstep with
  | receive guest msg copy s' hpc hreceived => exact h.receive hpc hcount hdemand hreceived
  | create guest msg copy svc s' hpc hcreated => exact h.create hpc hcount hcreated
  | join guest msg _ _ _ _ s' hpc hs' =>
    obtain ⟨rfl, rfl, rfl, rfl⟩ := hcount
    exact hs' ▸ h.join hpc
  | update guest msg _ _ s' hpc hrebound => exact h.update hpc hdemand hrebound
  | leave guest msg opened copied hpc =>
    obtain ⟨rfl, rfl⟩ := hdemand
    exact h.leave hpc
  | destroy guest msg ok copied hpc =>
    have hcopied : copied = true := hcount
    subst hcopied
    exact h.destroy hpc
  | app op k' heffect => exact h.app hcount heffect

end GuestDemandInv

theorem guestDemandInv_started (me : Int32) : GuestDemandInv me VirtHost.started := by
  have hnone : slotIndices VirtHost.started.vtimeline = [] := by decide
  have hserving : ∀ t, ¬ Serving VirtHost.started.kernel VirtHost.started.vtimeline t := by
    intro t ht
    have hslot := ht.slot
    rw [hnone] at hslot
    simp at hslot
  refine ⟨⟨⟨fun t ht => absurd ht (hserving t), fun name hlive => ?_,
    fun t ht => absurd ht (hserving t)⟩, trivial⟩, countInv_started me⟩
  exact absurd rfl hlive

/-- **The demand of the daemon.** In every run of the host whose steps are `DemandSafe`, whenever
the daemon has answered, its binding to a timeline with a live guest demands in each component no
less than the latest demand of every guest that is bound to it. -/
theorem daemon_demand_sufficient (me : Int32) (ops : List DaemonOp)
    (h : AllSteps (hostStep me) (DemandSafe me) VirtHost.started ops) :
    AllStates (hostStep me) (DemandsMet me) VirtHost.started ops :=
  allStates_of_inv (fun _ hs => hs.demandsMet) (fun _ _ _ hs hg hstep => hs.step hg hstep)
    (guestDemandInv_started me) h

theorem daemon_demand_sufficient_twoGuests :
    AllSteps (hostStep 1) (DemandSafe 1) VirtHost.started twoGuests
      ∧ AllStates (hostStep 1) (DemandsMet 1) VirtHost.started twoGuests := by
  have hsafe : AllSteps (hostStep 1) (DemandSafe 1) VirtHost.started twoGuests := by decide
  exact ⟨hsafe, daemon_demand_sufficient 1 twoGuests hsafe⟩

/-- The second guest of a timeline asks for a tighter quality than the first. -/
def tighterSecond : List DaemonOp :=
  [.receive 0 { letterMsg .timelineCreate 0 with
      demand := ⟨⟨0, 2⟩, ⟨⟨0, 2⟩, ⟨0, 2⟩⟩⟩ } ⟨true, true⟩,
    .create ⟨true, true⟩ ⟨true, 0⟩, .join true true true true,
    .receive 1 (letterMsg .timelineCreate 0) ⟨true, true⟩]

theorem tighterSecond_runs : (exec (hostStep 1) VirtHost.started tighterSecond).isSome := by decide

/-- Where it ends. -/
def afterTighterSecond : VirtHost :=
  (exec (hostStep 1) VirtHost.started tighterSecond).get tighterSecond_runs

/-- It is told OK, and the demand of the daemon stays that of the first. -/
theorem daemon_demand_too_loose :
    ¬ AllStates (hostStep 1) (DemandsMet 1) VirtHost.started tighterSecond := by
  intro h
  have hmet : DemandsMet 1 afterTighterSecond := h.exec (Option.some_get tighterSecond_runs).symm
  obtain ⟨t, ht, b, hb, hcovers⟩ := hmet (by decide) (letterName 0) (by decide)
  have hfound : qotTimelineFind afterTighterSecond.kernel.reg (letterName 0)
      = some ⟨letterName 0, 0, .qotTimelineLocal⟩ := by decide
  cases ht.symm.trans hfound
  have hown : afterTighterSecond.kernel.own 1 0
      = some ⟨⟨⟨⟨0, 2⟩, ⟨⟨0, 2⟩, ⟨0, 2⟩⟩⟩, 1⟩, 1, none⟩ := by decide
  cases hb.symm.trans hown
  exact absurd (hcovers 1 (by decide)) (by decide)

end Qot
