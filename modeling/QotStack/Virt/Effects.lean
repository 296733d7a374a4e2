import QotStack.Virt.Host

/-!
# QotStack — what one step of the host can do

One lemma for each call says what can come of it: `Kept`, `Registered` and `Bound` for the kernel,
`AppEffect` for the other programs, `Received` and `Created` for the daemon. `hostStep_effect` puts
them together, and everything about runs of the host is derived from it.
-/

namespace Qot

open SlotTable

/-! ## What the kernel does -/

/-- The binding of the daemon to a timeline. -/
def HostKernel.own (me : Int32) (k : HostKernel) (index : Int32) : Option BindingImpl :=
  findBinding (k.tables index).root me

/-- A timeline was registered under an index nobody had, and nobody is bound to it. -/
structure Registered (me : Int32) (k : HostKernel) (new : QotTimeline) (k' : HostKernel) :
    Prop where
  fresh : new.index ∉ k.indices
  nonneg : 0 ≤ new.index
  absent : qotTimelineFind k.reg new.name = none
  reg : k'.reg.Perm (new :: k.reg)
  found : ∀ name, qotTimelineFind k'.reg name
    = if name = new.name then some new else qotTimelineFind k.reg name
  unbound : k'.own me new.index = none
  own : ∀ i ∈ k.indices, k'.own me i = k.own me i

/-- The registry and the bindings of the daemon are as before. -/
structure Kept (me : Int32) (k k' : HostKernel) : Prop where
  reg : k'.reg = k.reg
  own : ∀ i ∈ k.indices, k'.own me i = k.own me i

theorem Kept.refl (me : Int32) (k : HostKernel) : Kept me k k := ⟨rfl, fun _ _ => rfl⟩

variable {me index pid : Int32} {k k' : HostKernel} {copy : UserCopy}
  {call : BindingTable → Option BindingTable} {tl tl' : BindingTable} {s s' : VirtHost}
  {msg : QotVirtmsg}

theorem Registered.mem_indices {new : QotTimeline} (h : Registered me k new k') {i : Int32} :
    i ∈ k'.indices ↔ i = new.index ∨ i ∈ k.indices := by
  have hperm : k'.indices.Perm (new.index :: k.indices) := h.reg.map _
  rw [hperm.mem_iff, List.mem_cons]

theorem qotTimelineInsert_spec {reg reg' : List QotTimeline} {t : QotTimeline}
    (h : qotTimelineInsert reg t = some reg') (name : CName) :
    qotTimelineFind reg' name = if name = t.name then some t else qotTimelineFind reg name := by
  by_cases hname : name = t.name
  · rw [if_pos hname, hname]
    exact qotTimelineFind_insert h
  · obtain ⟨-, rfl⟩ := qotTimelineInsert_cases h
    rw [if_neg hname]
    exact OrderedInsert.find?_insertBefore _ _ (by simpa using Ne.symm hname) reg

/-- Setting up a device under an index nobody has does not touch the others. -/
theorem own_update_fresh {idx : Int32} (hfresh : idx ∉ k.indices) (reg : List QotTimeline)
    {i : Int32} (hi : i ∈ k.indices) :
    HostKernel.own me ⟨reg, Function.update k.tables idx BindingTable.empty⟩ i = k.own me i := by
  have hne : i ≠ idx := fun h => hfresh (h ▸ hi)
  simp only [HostKernel.own, Function.update_of_ne hne]

/-- A create finds the timeline there, or registers it and says so, or fails; if only the copy back
to the caller fails, the timeline is there all the same. -/
theorem createTimeline_cases (me : Int32) {arg info : QotTimeline} {svc : CreateServices}
    {retval : Int} (h : k.createTimeline arg copy svc = some (retval, info, k')) :
    (retval = 1 ∧ info = arg ∧ copy.fromUser = true
        ∧ (qotTimelineFind k.reg arg.name).isSome ∧ Kept me k k')
      ∨ (retval = 0 ∧ info = { arg with index := svc.chdevRegister } ∧ Registered me k info k')
      ∨ (retval = -eacces ∧ info = arg
        ∧ (Kept me k k' ∨ Registered me k { arg with index := svc.chdevRegister } k')) := by
  simp only [HostKernel.createTimeline] at h
  split at h
  · simp at h
  rename_i hfresh
  simp only [Option.some.injEq, Prod.mk.injEq] at h
  obtain ⟨hret, hinfo, rfl⟩ := h
  -- the device that is new takes no binding of another one
  have hown : ∀ reg, ∀ i ∈ k.indices,
      HostKernel.own me ⟨reg, Function.update k.tables svc.chdevRegister BindingTable.empty⟩ i
        = k.own me i := fun reg i hi => own_update_fresh hfresh reg hi
  have hregistered : ∀ reg', TimelineInserted k.reg arg svc reg' →
      Registered me k { arg with index := svc.chdevRegister }
        ⟨reg', Function.update k.tables svc.chdevRegister BindingTable.empty⟩ := by
    rintro reg' ⟨hnonneg, hins⟩
    exact
      { fresh := hfresh
        nonneg := hnonneg
        absent := (qotTimelineInsert_cases hins).1
        reg := qotTimelineInsert_perm hins
        found := qotTimelineInsert_spec hins
        unbound := by simp [HostKernel.own, BindingTable.empty, findBinding]
        own := hown reg' }
  rcases qotusrCreateTimeline_cases k.reg arg copy svc with
    ⟨t, hcopy, hfind, hcreate⟩ | ⟨reg', hins, hcreate⟩ | ⟨-, reg', hreg', hcreate⟩
  · simp only [hcreate] at hret hinfo ⊢
    exact Or.inl ⟨hret.symm, hinfo.symm, hcopy, by simp [hfind], rfl, hown _⟩
  · simp only [hcreate] at hret hinfo ⊢
    subst hinfo
    exact Or.inr (Or.inl ⟨hret.symm, rfl, hregistered reg' hins⟩)
  · -- nothing is registered, or the copy back has failed
    simp only [hcreate] at hret hinfo ⊢
    refine Or.inr (Or.inr ⟨hret.symm, hinfo.symm, ?_⟩)
    rcases hreg' with rfl | hins
    · exact Or.inl ⟨rfl, hown _⟩
    · exact Or.inr (hregistered reg' hins)

theorem qotTimelineRemove_cases (k : HostKernel) (name : CName) (adminFlag : Bool) :
    (k.qotTimelineRemove name adminFlag).2 = k
      ∨ ∃ t, qotTimelineFind k.reg name = some t
        ∧ ((k.tables t.index).root = [] ∨ adminFlag = true)
        ∧ (k.qotTimelineRemove name adminFlag).2 = { k with reg := k.reg.erase t } := by
  simp only [HostKernel.qotTimelineRemove]
  cases hfind : qotTimelineFind k.reg name with
  | none => exact Or.inl rfl
  | some t =>
    simp only []
    split
    · exact Or.inl rfl
    · rename_i hrefused
      refine Or.inr ⟨t, rfl, ?_, rfl⟩
      by_cases hroot : (k.tables t.index).root = []
      · exact Or.inl hroot
      · exact Or.inr (by simpa [hroot] using hrefused)

/-- A successful call on the bindings of a timeline. -/
theorem HostKernel.ioctl_cases (h : k.ioctl index call = some k') :
    ∃ tl, call (k.tables index) = some tl
      ∧ k' = { k with tables := Function.update k.tables index tl } := by
  simp only [HostKernel.ioctl] at h
  split at h
  · obtain ⟨tl, htl, rfl⟩ := Option.map_eq_some_iff.mp h
    exact ⟨tl, htl, rfl⟩
  · simp at h

/-- A call on the bindings of a timeline that keeps those of the daemon. -/
theorem ioctl_kept
    (hcall : ∀ tl tl', call tl = some tl' → findBinding tl'.root me = findBinding tl.root me)
    (h : k.ioctl index call = some k') : Kept me k k' := by
  obtain ⟨tl, htl, rfl⟩ := HostKernel.ioctl_cases h
  refine ⟨rfl, fun i _ => ?_⟩
  by_cases hi : i = index
  · subst hi
    simpa [HostKernel.own] using hcall _ _ htl
  · simp [HostKernel.own, hi]

theorem findBinding_timelineBindJoin {q : Int32} {msgb : Option QotBinding} {alloc : Bool}
    (hq : q ≠ pid) (h : timelineBindJoin tl pid msgb alloc = some tl') :
    findBinding tl'.root q = findBinding tl.root q := by
  obtain ⟨info, -, hadd⟩ := Option.bind_eq_some_iff.mp h
  simp only [qotBindingAdd] at hadd
  split at hadd
  · obtain ⟨root', hins, rfl⟩ := Option.map_eq_some_iff.mp hadd
    obtain ⟨-, hroot'⟩ := insertBinding_cases hins
    show findBinding root' q = _
    rw [hroot']
    exact OrderedInsert.find?_insertBefore _ _ (by simpa using Ne.symm hq) _
  · simp at hadd

theorem findBinding_timelineBindLeave {q : Int32} {copied : Bool} (hq : q ≠ pid)
    (h : timelineBindLeave tl pid copied = some tl') :
    findBinding tl'.root q = findBinding tl.root q := by
  simp only [timelineBindLeave] at h
  split at h
  · obtain ⟨b, -, rfl⟩ := Option.map_eq_some_iff.mp h
    exact findBinding_filter hq
  · simp at h

theorem findBinding_timelineBindUpdate {q : Int32} {msgb : Option QotBinding} (hq : q ≠ pid)
    (h : timelineBindUpdate tl pid msgb = some tl') :
    findBinding tl'.root q = findBinding tl.root q := by
  obtain ⟨info, -, hupdate⟩ := Option.bind_eq_some_iff.mp h
  obtain ⟨b, -, rfl⟩ := Option.map_eq_some_iff.mp hupdate
  show findBinding (modifyBinding tl.root pid _) q = _
  rw [findBinding_modifyBinding (f := fun b => { b with info := info }) fun _ => rfl]
  cases hfind : findBinding tl.root q with
  | none => rfl
  | some b =>
    have hb : b.pid ≠ pid := (findBinding_mem hfind).2 ▸ hq
    simp [hb]

/-- What another program can do: nothing that concerns the daemon, register a timeline, or remove
one that has no bindings or that it may remove as the administrator. -/
inductive AppEffect (me : Int32) (k : HostKernel) (op : AppOp) (k' : HostKernel) : Prop where
  | kept (h : Kept me k k')
  | registered (new : QotTimeline) (h : Registered me k new k')
  | removed (name : CName) (adminFlag : Bool) (t : QotTimeline)
      (hop : op = .removeTimeline name adminFlag) (hfind : qotTimelineFind k.reg name = some t)
      (hfree : (k.tables t.index).root = [] ∨ adminFlag = true)
      (hk' : k' = { k with reg := k.reg.erase t })

theorem appIoctl_kept (hcall : me ≠ pid → ∀ tl tl', call tl = some tl' →
      findBinding tl'.root me = findBinding tl.root me)
    (h : k.appIoctl me index pid call = some k') : Kept me k k' := by
  simp only [HostKernel.appIoctl] at h
  split at h
  · simp at h
  · rename_i hpid
    cases h
    cases hioctl : k.ioctl index call with
    | none => exact Kept.refl me k
    | some k' => exact ioctl_kept (hcall (Ne.symm hpid)) hioctl

theorem appStep_effect {op : AppOp} (h : k.appStep me op = some k') : AppEffect me k op k' := by
  cases op with
  | createTimeline arg copy svc =>
    obtain ⟨⟨retval, info, k₁⟩, hcreate, rfl⟩ := Option.map_eq_some_iff.mp h
    rcases createTimeline_cases me hcreate with
      ⟨-, -, -, -, hkept⟩ | ⟨-, -, hreg⟩ | ⟨-, -, hkept | hreg⟩
    · exact .kept hkept
    · exact .registered _ hreg
    · exact .kept hkept
    · exact .registered _ hreg
  | removeTimeline name adminFlag =>
    cases h
    rcases qotTimelineRemove_cases k name adminFlag with hsame | ⟨t, hfind, hfree, hk'⟩
    · rw [hsame]
      exact .kept (Kept.refl me k)
    · exact .removed name adminFlag t rfl hfind hfree hk'
  | bindJoin index pid msgb alloc =>
    exact .kept (appIoctl_kept (fun hne _ _ => findBinding_timelineBindJoin hne) h)
  | bindLeave index pid copied =>
    exact .kept (appIoctl_kept (fun hne _ _ => findBinding_timelineBindLeave hne) h)
  | bindUpdate index pid msgb =>
    exact .kept (appIoctl_kept (fun hne _ _ => findBinding_timelineBindUpdate hne) h)

/-! ## What the daemon does -/

/-- `QOTUSR_GET_TIMELINE_INFO` finds nothing: there is no such timeline, or a copy faults. -/
def Missed (reg : List QotTimeline) (msg : QotVirtmsg) (copy : UserCopy) : Prop :=
  qotTimelineFind reg msg.info.name = none ∨ copy.fromUser = false ∨ copy.toUser = false

theorem qotusrGetTimelineInfo_cases (reg : List QotTimeline) (msg : QotVirtmsg) (copy : UserCopy) :
    (∃ t, qotTimelineFind reg msg.info.name = some t
        ∧ qotusrGetTimelineInfo reg msg.info copy = (0, t))
      ∨ (Missed reg msg copy ∧ qotusrGetTimelineInfo reg msg.info copy = (-eacces, msg.info)) := by
  simp only [qotusrGetTimelineInfo, qotTimelineGetInfo, Missed]
  cases copy.fromUser with
  | false => exact Or.inr ⟨Or.inr (Or.inl rfl), rfl⟩
  | true =>
    simp only [if_true]
    cases hfind : qotTimelineFind reg msg.info.name with
    | none => exact Or.inr ⟨Or.inl rfl, rfl⟩
    | some t =>
      cases copy.toUser with
      | false => exact Or.inr ⟨Or.inr (Or.inr rfl), rfl⟩
      | true => exact Or.inl ⟨t, rfl, rfl⟩

/-- What can come of a message before another call is made. -/
inductive Received (s : VirtHost) (guest : Nat) (msg : QotVirtmsg) (copy : UserCopy) :
    VirtHost → Prop where
  | counted (t : QotTimeline) (htype : msg.msgtype = .timelineCreate)
      (hfind : qotTimelineFind s.kernel.reg msg.info.name = some t) :
      Received s guest msg copy
        ({ s with vtimeline := incrementBindCount s.vtimeline t }.reply guest
          { msg with info := t } true)
  | absent (htype : msg.msgtype = .timelineCreate) (hroom : s.tlCount < maxTimelines)
      (hmissed : Missed s.kernel.reg msg copy) :
      Received s guest msg copy { s with pc := .creating guest msg }
  | discounted (t : QotTimeline) (n : Int32) (htype : msg.msgtype = .timelineDestroy)
      (hfind : qotTimelineFind s.kernel.reg msg.info.name = some t)
      (hcount : getBindCount (decrementBindCount s.vtimeline t) t = some n) (hn : n ≠ 0) :
      Received s guest msg copy
        ({ s with vtimeline := decrementBindCount s.vtimeline t }.reply guest
          { msg with info := t } true)
  | last (t : QotTimeline) (htype : msg.msgtype = .timelineDestroy)
      (hfind : qotTimelineFind s.kernel.reg msg.info.name = some t)
      (hcount : getBindCount (decrementBindCount s.vtimeline t) t = some 0) :
      Received s guest msg copy
        { s with
          vtimeline := stopThread (decrementBindCount s.vtimeline t) t
          pc := .leaving guest { msg with info := t } }
  | updating (t : QotTimeline) (htype : msg.msgtype = .timelineUpdate)
      (hfind : qotTimelineFind s.kernel.reg msg.info.name = some t) :
      Received s guest msg copy { s with pc := .updating guest { msg with info := t } }
  | refused (hmissed : msg.msgtype = .timelineCreate → Missed s.kernel.reg msg copy) :
      Received s guest msg copy (s.reply guest msg false)

theorem receive_spec {guest : Nat} (h : s.receive guest msg copy = some s') :
    Received s guest msg copy s' := by
  have hneg : -eacces < 0 := by decide
  simp only [VirtHost.receive] at h
  rcases qotusrGetTimelineInfo_cases s.kernel.reg msg copy with ⟨t, hfind, hinfo⟩ | ⟨hmissed, hinfo⟩
  · simp only [hinfo, Int.lt_irrefl, if_false] at h
    split at h
    · rename_i htype
      cases h
      exact .counted t htype hfind
    · rename_i htype
      obtain ⟨n, hcount, rfl⟩ := Option.map_eq_some_iff.mp h
      split
      · rename_i hn
        exact .last t htype hfind (hn ▸ hcount)
      · rename_i hn
        exact .discounted t n htype hfind hcount hn
    · rename_i htype
      cases h
      exact .updating t htype hfind
    · rename_i htype
      cases h
      exact .refused fun hcreate => by simp [htype] at hcreate
  · simp only [hinfo, hneg, if_true] at h
    have hrefused : Received s guest msg copy (s.reply guest msg false) := .refused fun _ => hmissed
    split at h
    · rename_i htype
      split at h
      · rename_i hroom
        cases h
        exact .absent htype hroom hmissed
      · cases h
        exact hrefused
    · cases h
      exact hrefused
    · cases h
      exact hrefused
    · cases h
      exact hrefused

/-- What comes of `QOTUSR_CREATE_TIMELINE`. -/
inductive Created (me : Int32) (s : VirtHost) (guest : Nat) (msg : QotVirtmsg) (copy : UserCopy)
    (svc : CreateServices) : VirtHost → Prop where
  | failed (k' : HostKernel)
      (h : Kept me s.kernel k'
        ∨ Registered me s.kernel { msg.info with index := svc.chdevRegister } k') :
      Created me s guest msg copy svc ({ s with kernel := k' }.reply guest msg false)
  | existed (k' : HostKernel) (s' : VirtHost) (hcopy : copy.fromUser = true)
      (hfind : (qotTimelineFind s.kernel.reg msg.info.name).isSome) (hkept : Kept me s.kernel k')
      (htake : { s with kernel := k' }.takeSlot guest msg = some s') :
      Created me s guest msg copy svc s'
  | made (new : QotTimeline) (k' : HostKernel) (s' : VirtHost)
      (hnew : new = { msg.info with index := svc.chdevRegister })
      (hreg : Registered me s.kernel new k')
      (htake : { s with kernel := k' }.takeSlot guest { msg with info := new } = some s') :
      Created me s guest msg copy svc s'

theorem create_spec (me : Int32) {guest : Nat} {svc : CreateServices}
    (h : s.create guest msg copy svc = some s') : Created me s guest msg copy svc s' := by
  obtain ⟨⟨retval, info, k'⟩, hcreate, h⟩ := Option.bind_eq_some_iff.mp h
  rcases createTimeline_cases me hcreate with
    ⟨rfl, rfl, hcopy, hfind, hkept⟩ | ⟨rfl, hinfo, hreg⟩ | ⟨rfl, rfl, hkernel⟩
  · exact .existed k' s' hcopy hfind hkept h
  · exact .made info k' s' hinfo hreg h
  · cases h
    exact .failed k' hkernel

/-- The daemon is bound to a timeline with a demand; nothing else changed for it. -/
structure Bound (me : Int32) (k : HostKernel) (index : Int32) (demand : Timequality)
    (k' : HostKernel) : Prop where
  reg : k'.reg = k.reg
  own : ∃ b, k'.own me index = some b ∧ b.info.demand = demand
  others : ∀ i, i ≠ index → k'.own me i = k.own me i

/-- A successful call of the daemon, which opens the device for it. -/
theorem HostKernel.opened_ioctl_cases {opened : Bool}
    (h : (if opened then k.ioctl index call else none) = some k') :
    ∃ tl, call (k.tables index) = some tl
      ∧ k' = { k with tables := Function.update k.tables index tl } := by
  cases opened with
  | false => simp at h
  | true => exact HostKernel.ioctl_cases h

theorem bound_of_table {demand : Timequality}
    (h : ∃ b, findBinding tl.root me = some b ∧ b.info.demand = demand) :
    Bound me k index demand { k with tables := Function.update k.tables index tl } where
  reg := rfl
  own := by simpa [HostKernel.own] using h
  others i hi := by simp [HostKernel.own, hi]

theorem findBinding_joined {info : QotBinding} {alloc : Bool}
    (h : timelineBindJoin tl me (some info) alloc = some tl') :
    ∃ b, findBinding tl'.root me = some b ∧ b.info.demand = info.demand := by
  simp only [timelineBindJoin, Option.bind_some, qotBindingAdd] at h
  split at h
  · obtain ⟨root', hins, rfl⟩ := Option.map_eq_some_iff.mp h
    obtain ⟨hfresh, hroot'⟩ := insertBinding_cases hins
    refine ⟨⟨{ info with id := me }, me, none⟩, ?_, rfl⟩
    show findBinding root' me = _
    rw [hroot']
    exact OrderedInsert.find?_insertBefore_self _ _ (by simp) (findBinding_eq_none.mpr hfresh)
  · simp at h

theorem findBinding_updated {info : QotBinding}
    (h : timelineBindUpdate tl me (some info) = some tl') :
    ∃ b, findBinding tl'.root me = some b ∧ b.info.demand = info.demand := by
  simp only [timelineBindUpdate, Option.bind_some] at h
  obtain ⟨b, hfind, rfl⟩ := Option.map_eq_some_iff.mp h
  refine ⟨{ b with info := info }, ?_, rfl⟩
  show findBinding (modifyBinding tl.root me _) me = _
  rw [findBinding_modifyBinding (f := fun b => { b with info := info }) fun _ => rfl, hfind]
  simp [(findBinding_mem hfind).2]

/-- What comes of a call that is to bind the daemon with the demand of the message: an error, or the
binding. -/
inductive Rebound (me : Int32) (s : VirtHost) (guest : Nat) (msg : QotVirtmsg) (ok : Bool) :
    VirtHost → Prop where
  | refused : Rebound me s guest msg ok (s.reply guest msg false)
  | bound (k' : HostKernel) (h : Bound me s.kernel msg.info.index msg.demand k') :
      Rebound me s guest msg ok ({ s with kernel := k' }.reply guest msg ok)

theorem rebound_join (me : Int32) (s : VirtHost) (guest : Nat) (msg : QotVirtmsg)
    (opened copied alloc copiedBack : Bool) :
    Rebound me s guest msg copiedBack (s.join me guest msg opened copied alloc copiedBack) := by
  simp only [VirtHost.join]
  split
  · exact .refused
  · next k' hcall =>
    obtain ⟨tl, htl, rfl⟩ := HostKernel.opened_ioctl_cases hcall
    cases copied with
    | false => simp [timelineBindJoin] at htl
    | true => exact .bound _ (bound_of_table (findBinding_joined htl))

/-- A join for which the kernel has what it needs succeeds. -/
theorem join_succeeds (guest : Nat) (hindex : msg.info.index ∈ s.kernel.indices)
    (hown : s.kernel.own me msg.info.index = none) :
    ∃ k', Bound me s.kernel msg.info.index msg.demand k'
      ∧ s.join me guest msg true true true true = { s with kernel := k' }.reply guest msg true := by
  have hins : ∃ root', insertBinding (s.kernel.tables msg.info.index).root
      ⟨{ daemonBinding me msg with id := me }, me, none⟩ = some root' := by
    have hfind : findBinding (s.kernel.tables msg.info.index).root me = none := hown
    simp [insertBinding, hfind]
  obtain ⟨root', hins⟩ := hins
  have hjoin : timelineBindJoin (s.kernel.tables msg.info.index) me (some (daemonBinding me msg))
    true
      = some ({ s.kernel.tables msg.info.index with root := root' }.link me) := by
    simp only [timelineBindJoin, Option.bind_some, qotBindingAdd, if_true, hins, Option.map_some]
  refine ⟨_, bound_of_table (findBinding_joined hjoin), ?_⟩
  simp only [VirtHost.join, if_true, HostKernel.ioctl, hindex, hjoin, Option.map_some]

theorem rebound_update (me : Int32) (s : VirtHost) (guest : Nat) (msg : QotVirtmsg)
    (opened copied : Bool) : Rebound me s guest msg true (s.update me guest msg opened copied) := by
  simp only [VirtHost.update]
  split
  · exact .refused
  · next k' hcall =>
    obtain ⟨tl, htl, rfl⟩ := HostKernel.opened_ioctl_cases hcall
    cases copied with
    | false => simp [timelineBindUpdate] at htl
    | true => exact .bound _ (bound_of_table (findBinding_updated htl))

/-- A leave changes no binding of the daemon but the one it is for. -/
theorem leave_cases (me : Int32) (s : VirtHost) (guest : Nat) (msg : QotVirtmsg)
    (opened copied : Bool) :
    ∃ k' ok, k'.reg = s.kernel.reg ∧ (∀ i, i ≠ msg.info.index → k'.own me i = s.kernel.own me i)
      ∧ s.leave me guest msg opened copied
        = { s with kernel := k', pc := .destroying guest msg ok } := by
  simp only [VirtHost.leave]
  split
  · exact ⟨s.kernel, false, rfl, fun _ _ => rfl, rfl⟩
  · rename_i k' hcall
    obtain ⟨tl, -, rfl⟩ := HostKernel.opened_ioctl_cases hcall
    refine ⟨{ s.kernel with tables := Function.update s.kernel.tables msg.info.index tl }, true,
      rfl, fun i hi => ?_, rfl⟩
    simp [HostKernel.own, hi]

/-- A daemon that is bound can leave. -/
theorem leave_succeeds (guest : Nat) {b : BindingImpl} (hindex : msg.info.index ∈ s.kernel.indices)
    (hown : s.kernel.own me msg.info.index = some b) :
    (s.leave me guest msg true true).pc = .destroying guest msg true := by
  have hfind : findBinding (s.kernel.tables msg.info.index).root me = some b := hown
  simp [VirtHost.leave, HostKernel.ioctl, hindex, timelineBindLeave, hfind]

/-- A destroy the kernel refuses frees the slot like one it carries out. -/
theorem destroy_cases (s : VirtHost) (guest : Nat) (msg : QotVirtmsg) (ok : Bool) :
    ∃ k', (k' = s.kernel ∨ ∃ t, qotTimelineFind s.kernel.reg msg.info.name = some t
        ∧ k' = { s.kernel with reg := s.kernel.reg.erase t })
      ∧ s.destroy guest msg ok true
        = { s with
            kernel := k'
            tlCount := s.tlCount - 1
            vtimeline := removeTimelineFromList s.vtimeline msg.info }.reply guest msg ok := by
  have hnonneg : ¬ (s.kernel.destroyTimeline msg.info true).1 < 0 := by
    simp only [HostKernel.destroyTimeline, if_true]
    split <;> simp
  have hcount : (if s.tlCount > 0 then s.tlCount - 1 else s.tlCount) = s.tlCount - 1 := by
    split <;> omega
  have hkernel : (s.kernel.destroyTimeline msg.info true).2
      = (s.kernel.qotTimelineRemove msg.info.name false).2 := by
    simp only [HostKernel.destroyTimeline, if_true]
    split <;> rfl
  refine ⟨(s.kernel.destroyTimeline msg.info true).2, ?_, ?_⟩
  · rw [hkernel]
    rcases qotTimelineRemove_cases s.kernel msg.info.name false with hsame | ⟨t, hfind, -, hk'⟩
    · exact Or.inl hsame
    · exact Or.inr ⟨t, hfind, hk'⟩
  · simp only [VirtHost.destroy, hnonneg, if_false, hcount]

theorem destroy_not_copied (s : VirtHost) (guest : Nat) (msg : QotVirtmsg) (ok : Bool) :
    s.destroy guest msg ok false = s.reply guest msg false := by
  simp [VirtHost.destroy, HostKernel.destroyTimeline, eacces]

/-- What a step of the host can be. -/
inductive HostEffect (me : Int32) (s : VirtHost) : DaemonOp → VirtHost → Prop where
  | receive (guest : Nat) (msg : QotVirtmsg) (copy : UserCopy) (s' : VirtHost) (hpc : s.pc = .idle)
      (h : Received s guest msg copy s') : HostEffect me s (.receive guest msg copy) s'
  | create (guest : Nat) (msg : QotVirtmsg) (copy : UserCopy) (svc : CreateServices)
      (s' : VirtHost) (hpc : s.pc = .creating guest msg)
      (h : Created me s guest msg copy svc s') : HostEffect me s (.create copy svc) s'
  | join (guest : Nat) (msg : QotVirtmsg) (opened copied alloc copiedBack : Bool) (s' : VirtHost)
      (hpc : s.pc = .joining guest msg)
      (hs' : s.join me guest msg opened copied alloc copiedBack = s')
      (h : Rebound me s guest msg copiedBack s') :
      HostEffect me s (.join opened copied alloc copiedBack) s'
  | update (guest : Nat) (msg : QotVirtmsg) (opened copied : Bool) (s' : VirtHost)
      (hpc : s.pc = .updating guest msg) (h : Rebound me s guest msg true s') :
      HostEffect me s (.update opened copied) s'
  | leave (guest : Nat) (msg : QotVirtmsg) (opened copied : Bool)
      (hpc : s.pc = .leaving guest msg) :
      HostEffect me s (.leave opened copied) (s.leave me guest msg opened copied)
  | destroy (guest : Nat) (msg : QotVirtmsg) (ok copied : Bool)
      (hpc : s.pc = .destroying guest msg ok) :
      HostEffect me s (.destroy copied) (s.destroy guest msg ok copied)
  | app (op : AppOp) (k' : HostKernel) (h : AppEffect me s.kernel op k') :
      HostEffect me s (.app op) { s with kernel := k' }

theorem hostStep_effect {op : DaemonOp} (h : hostStep me s op = some s') :
    HostEffect me s op s' := by
  simp only [hostStep] at h
  split at h
  · rename_i hpc
    exact .receive _ _ _ _ hpc (receive_spec h)
  · rename_i hpc
    exact .create _ _ _ _ _ hpc (create_spec me h)
  · rename_i hpc
    cases h
    exact .join _ _ _ _ _ _ _ hpc rfl (rebound_join ..)
  · rename_i hpc
    cases h
    exact .update _ _ _ _ _ hpc (rebound_update ..)
  · rename_i hpc
    cases h
    exact .leave _ _ _ _ hpc
  · rename_i hpc
    cases h
    exact .destroy _ _ _ _ hpc
  · obtain ⟨k', hk', rfl⟩ := Option.map_eq_some_iff.mp h
    exact .app _ k' (appStep_effect hk')
  · simp at h

end Qot
