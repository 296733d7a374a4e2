import QotStack.Lib.Runs
import QotStack.Registry.Bind
import QotStack.Sync.Conversion

/-!
# QotStack — the event queue of a connection (`qot_user_chdev.c`)

Every open file of `/dev/qotusr` has a connection with a list of events: the timelines that exist
when the file is opened, the timelines created later, the starts of its periodic outputs, and its
timers. The process polls the file and takes the events out one by one.

What is returned and what is still queued should be what was queued, in this order (`Kept`). The
code takes an event out of the list before it copies it to the process, so that an event is lost
when the copy fails; `event_queue_iff` says that nothing else is. The flag beside the list is
redundant: it is set whenever the list is not empty.
-/

namespace Qot

/-! ## Events -/

inductive QotEventType where
  | qotEventTimelineCreate
  | qotEventClockCreate
  | qotEventExternalTimestamp
  | qotEventPwmStart
  | qotEventTimerCallback
  deriving DecidableEq, Repr

structure QotEvent where
  type : QotEventType
  timestamp : Utimepoint
  data : CName
  deriving DecidableEq

/-- A time stamp as `kzalloc` leaves it. -/
def Utimepoint.zero : Utimepoint := ⟨⟨0, 0⟩, ⟨⟨0, 0⟩, ⟨0, 0⟩⟩⟩

/-! ## A connection -/

/-- The events of a connection and the flag that is to say that there are some. -/
structure Con where
  eventFlag : Bool
  eventList : List QotEvent
  deriving DecidableEq

namespace Con

def listAddTail (con : Con) (event : QotEvent) : Con :=
  { con with eventList := con.eventList ++ [event] }

/-- What all deliveries end with. -/
def deliver (con : Con) (event : QotEvent) : Con :=
  { con.listAddTail event with eventFlag := true }

/-- The turn of one connection in the loop over all of them. When there is no memory the loop goes
on with the same connection, so the turn ends with the first `kzalloc` that succeeds. -/
def qotUserTimelineCreateNotify (con : Con) (timeline : QotTimeline) (timestamp : Utimepoint) :
    List Bool → Option Con
  | [] => none
  | kzalloc :: later =>
    if kzalloc then some (con.deliver ⟨.qotEventTimelineCreate, timestamp, timeline.name⟩)
    else con.qotUserTimelineCreateNotify timeline timestamp later

def qotUserChdevAddEvent (con : Con) (event : QotEvent) (kzalloc : Bool) : Int × Con :=
  if kzalloc then (0, con.deliver event) else (1, con)

/-- The event of a periodic output, stamped with the time of its timeline. -/
def peroutEvent (timelineImpl : TlTranslation) (timeline : QotTimeline)
    (eventCoreTimestamp : Timepoint) : QotEvent :=
  ⟨.qotEventPwmStart,
    { Utimepoint.zero with estimate := Qot.qotPeroutNotify timelineImpl eventCoreTimestamp },
    timeline.name⟩

def qotPeroutNotify (con : Con) (timelineImpl : TlTranslation) (timeline : QotTimeline)
    (eventCoreTimestamp : Timepoint) (kzalloc : Bool) : Int × Con :=
  if kzalloc then (0, con.deliver (peroutEvent timelineImpl timeline eventCoreTimestamp))
  else (1, con)

/-- The events of the timelines that exist when the file is opened, each with whether there is
memory for it. -/
def openEvents (timelines : List (QotTimeline × Bool)) : List QotEvent :=
  (timelines.filter (·.2)).map fun entry =>
    ⟨.qotEventTimelineCreate, Utimepoint.zero, entry.1.name⟩

/-- One turn of the loop over the timelines. -/
def openTurn (con : Con) (entry : QotTimeline × Bool) : Con :=
  if entry.2 then con.listAddTail ⟨.qotEventTimelineCreate, Utimepoint.zero, entry.1.name⟩ else con

/-- The loop of `qot_user_chdev_ioctl_open` over the timelines. -/
def openEnumerate (con : Con) (timelines : List (QotTimeline × Bool)) : Con :=
  let con := timelines.foldl openTurn con
  -- also when there was memory for none of the events
  if timelines = [] then con else { con with eventFlag := true }

/-- A connection as it is allocated. -/
def new : Con := ⟨false, []⟩

/-- `QOTUSR_GET_NEXT_EVENT`, where `toUser` says whether the event can be copied: the result, the
event the process gets, and the connection afterwards. -/
def qotusrGetNextEvent (con : Con) (toUser : Bool) : Int × Option QotEvent × Con :=
  match con.eventList with
  | [] => (-eacces, none, { con with eventFlag := false })
  | event :: rest =>
    let con := { con with eventList := rest }
    if toUser then (0, some event, con) else (-eacces, none, con)

/-- Whether `qot_user_chdev_poll` reports `POLLIN`. -/
def qotUserChdevPoll (con : Con) : Bool := con.eventFlag && !con.eventList.isEmpty

end Con

inductive ConOp where
  | createNotify (timeline : QotTimeline) (timestamp : Utimepoint) (kzalloc : List Bool)
  | addEvent (event : QotEvent) (kzalloc : Bool)
  | peroutNotify (timelineImpl : TlTranslation) (timeline : QotTimeline)
      (eventCoreTimestamp : Timepoint) (kzalloc : Bool)
  | getNextEvent (toUser : Bool)
  | poll

/-- The result of a call, the event it returns and the connection afterwards, if the call ends. -/
def Con.call (con : Con) : ConOp → Option (Int × Option QotEvent × Con)
  | .createNotify timeline timestamp kzalloc =>
    (con.qotUserTimelineCreateNotify timeline timestamp kzalloc).map fun con => (0, none, con)
  | .addEvent event kzalloc =>
    let (result, con) := con.qotUserChdevAddEvent event kzalloc
    some (result, none, con)
  | .peroutNotify timelineImpl timeline eventCoreTimestamp kzalloc =>
    let (result, con) := con.qotPeroutNotify timelineImpl timeline eventCoreTimestamp kzalloc
    some (result, none, con)
  | .getNextEvent toUser => some (con.qotusrGetNextEvent toUser)
  | .poll => some (0, none, con)

/-! ## What a queue is for -/

/-- The events a call adds to the queue. -/
def ConOp.enqueues : ConOp → List QotEvent
  | .createNotify timeline timestamp _ => [⟨.qotEventTimelineCreate, timestamp, timeline.name⟩]
  | .addEvent event kzalloc => if kzalloc then [event] else []
  | .peroutNotify timelineImpl timeline eventCoreTimestamp kzalloc =>
    if kzalloc then [Con.peroutEvent timelineImpl timeline eventCoreTimestamp] else []
  | .getNextEvent _ | .poll => []

/-- A connection with all events it was ever given, and all it has returned. -/
structure ConHistory where
  con : Con
  enqueued : List QotEvent
  returned : List QotEvent
  deriving DecidableEq

namespace ConHistory

def opened (timelines : List (QotTimeline × Bool)) : ConHistory :=
  ⟨Con.new.openEnumerate timelines, Con.openEvents timelines, []⟩

def step (h : ConHistory) (op : ConOp) : Option ConHistory :=
  (h.con.call op).map fun (_, returned, con) =>
    ⟨con, h.enqueued ++ op.enqueues, h.returned ++ returned.toList⟩

/-- No event is lost, doubled or overtaken, and `poll` tells whether there is one. -/
structure Kept (h : ConHistory) : Prop where
  order : h.enqueued = h.returned ++ h.con.eventList
  poll : h.con.qotUserChdevPoll = true ↔ h.con.eventList ≠ []

/-- A call that fails leaves the queue as it was. -/
def FailureLeaves (h : ConHistory) (op : ConOp) : Prop :=
  ∀ result returned con, h.con.call op = some (result, returned, con) → result ≠ 0 →
    con.eventList = h.con.eventList

/-- The copy to the process does not fail while there is an event to copy. -/
def CopySafe (h : ConHistory) (op : ConOp) : Prop :=
  op = .getNextEvent false → h.con.eventList = []

/-- The queue is what has not been returned, and the flag is set unless it is empty. -/
structure Queued (h : ConHistory) : Prop where
  order : h.enqueued = h.returned ++ h.con.eventList
  flag : h.con.eventList ≠ [] → h.con.eventFlag = true

theorem Queued.kept {h : ConHistory} (hq : Queued h) : Kept h where
  order := hq.order
  poll := by
    have hflag := hq.flag
    simp only [Con.qotUserChdevPoll, Bool.and_eq_true, Bool.not_eq_true', List.isEmpty_eq_false_iff]
    exact ⟨And.right, fun hne => ⟨hflag hne, hne⟩⟩

end ConHistory

/-! ## Opening -/

theorem foldl_openTurn (timelines : List (QotTimeline × Bool)) (con : Con) :
    timelines.foldl Con.openTurn con
      = { con with eventList := con.eventList ++ Con.openEvents timelines } := by
  induction timelines generalizing con with
  | nil => simp [Con.openEvents]
  | cons entry rest ih =>
    rw [List.foldl_cons, ih]
    cases hentry : entry.2 with
    | false => simp [Con.openTurn, Con.openEvents, hentry]
    | true => simp [Con.openTurn, Con.openEvents, Con.listAddTail, hentry]

namespace ConHistory

theorem queued_opened (timelines : List (QotTimeline × Bool)) : Queued (opened timelines) := by
  unfold opened Con.openEnumerate Con.new
  simp only [foldl_openTurn, List.nil_append]
  split
  · next hnil =>
    subst hnil
    exact ⟨rfl, fun hne => absurd rfl hne⟩
  · exact ⟨rfl, fun _ => rfl⟩

/-! ## One call -/

variable {con : Con} {op : ConOp} {h : ConHistory}

theorem notify_eq {con' : Con} {timeline : QotTimeline} {timestamp : Utimepoint}
    {kzalloc : List Bool}
    (h : con.qotUserTimelineCreateNotify timeline timestamp kzalloc = some con') :
    con' = con.deliver ⟨.qotEventTimelineCreate, timestamp, timeline.name⟩ := by
  induction kzalloc with
  | nil => cases h
  | cons first later ih =>
    cases first with
    | true => exact (Option.some.inj h).symm
    | false => exact ih h

/-- A call other than for the next event delivers its events, and succeeds if there are any. -/
theorem call_cases {con' : Con} {result : Int} {returned : Option QotEvent}
    (h : con.call op = some (result, returned, con')) :
    (∃ toUser, op = .getNextEvent toUser ∧ con.qotusrGetNextEvent toUser = (result, returned, con'))
      ∨ ((∀ toUser, op ≠ .getNextEvent toUser) ∧ returned = none
        ∧ (op.enqueues = [] ∧ con' = con
          ∨ ∃ event, op.enqueues = [event] ∧ result = 0 ∧ con' = con.deliver event)) := by
  cases op with
  | createNotify timeline timestamp kzalloc =>
    obtain ⟨con₁, hnotify, heq⟩ := Option.map_eq_some_iff.mp h
    cases heq
    exact Or.inr ⟨by simp, rfl, Or.inr ⟨_, rfl, rfl, notify_eq hnotify⟩⟩
  | addEvent event kzalloc =>
    cases kzalloc <;> cases h
    · exact Or.inr ⟨by simp, rfl, Or.inl ⟨rfl, rfl⟩⟩
    · exact Or.inr ⟨by simp, rfl, Or.inr ⟨event, rfl, rfl, rfl⟩⟩
  | peroutNotify timelineImpl timeline eventCoreTimestamp kzalloc =>
    cases kzalloc <;> cases h
    · exact Or.inr ⟨by simp, rfl, Or.inl ⟨rfl, rfl⟩⟩
    · exact Or.inr ⟨by simp, rfl, Or.inr ⟨_, rfl, rfl, rfl⟩⟩
  | getNextEvent toUser => exact Or.inl ⟨toUser, rfl, Option.some.inj h⟩
  | poll =>
    cases h
    exact Or.inr ⟨by simp, rfl, Or.inl ⟨rfl, rfl⟩⟩

/-- What `QOTUSR_GET_NEXT_EVENT` returns is what it takes from the queue, unless the copy fails. -/
theorem getNextEvent_order {con' : Con} {toUser : Bool} {result : Int} {returned : Option QotEvent}
    (h : con.qotusrGetNextEvent toUser = (result, returned, con'))
    (hsafe : toUser = false → con.eventList = []) :
    con.eventList = returned.toList ++ con'.eventList
      ∧ (con'.eventList ≠ [] → con'.eventFlag = con.eventFlag)
      ∧ (result ≠ 0 → con'.eventList = con.eventList) := by
  unfold Con.qotusrGetNextEvent at h
  cases hlist : con.eventList with
  | nil =>
    rw [hlist] at h
    cases h
    simp
  | cons event rest =>
    cases toUser with
    | false => cases hlist.symm.trans (hsafe rfl)
    | true =>
      rw [hlist] at h
      cases h
      simp

theorem queued_step {h' : ConHistory} (hq : Queued h) (hsafe : CopySafe h op)
    (hstep : h.step op = some h') : Queued h' := by
  obtain ⟨⟨result, returned, con⟩, hcall, rfl⟩ := Option.map_eq_some_iff.mp hstep
  obtain ⟨toUser, rfl, hget⟩ | ⟨-, rfl, ⟨hnone, rfl⟩ | ⟨event, hevent, -, rfl⟩⟩ := call_cases hcall
  · obtain ⟨horder, hflag, -⟩ := getNextEvent_order hget fun hfalse => hsafe (hfalse ▸ rfl)
    refine ⟨?_, fun hne => ?_⟩
    · show h.enqueued ++ [] = h.returned ++ returned.toList ++ con.eventList
      rw [List.append_nil, hq.order, horder, List.append_assoc]
    · rw [hflag hne]
      refine hq.flag fun hnil => hne ?_
      rw [hnil] at horder
      exact (List.append_eq_nil_iff.mp horder.symm).2
  · refine ⟨?_, hq.flag⟩
    show h.enqueued ++ op.enqueues = h.returned ++ [] ++ h.con.eventList
    rw [hnone, List.append_nil, List.append_nil]
    exact hq.order
  · refine ⟨?_, fun _ => rfl⟩
    show h.enqueued ++ op.enqueues = h.returned ++ [] ++ (h.con.eventList ++ [event])
    rw [hevent, hq.order, List.append_nil, List.append_assoc]

theorem failureLeaves_of_copySafe (hsafe : CopySafe h op) : FailureLeaves h op := by
  intro result returned con hcall hresult
  obtain ⟨toUser, rfl, hget⟩ | ⟨-, -, ⟨-, rfl⟩ | ⟨event, -, hzero, -⟩⟩ := call_cases hcall
  · exact (getNextEvent_order hget fun hfalse => hsafe (hfalse ▸ rfl)).2.2 hresult
  · rfl
  · exact absurd hzero hresult

theorem call_failed_copy {event : QotEvent} {rest : List QotEvent}
    (hlist : con.eventList = event :: rest) :
    con.call (.getNextEvent false) = some (-eacces, none, { con with eventList := rest }) := by
  simp only [Con.call, Con.qotusrGetNextEvent, hlist]
  rfl

/-- A copy that fails leaves the queue only if there is nothing in it. -/
theorem copySafe_of_failureLeaves (hleaves : FailureLeaves h op) : CopySafe h op := by
  rintro rfl
  cases hlist : h.con.eventList with
  | nil => rfl
  | cons event rest =>
    have hsame : rest = event :: rest :=
      (hleaves _ _ _ (call_failed_copy hlist) (by decide)).trans hlist
    exact absurd hsame.symm (List.cons_ne_self event rest)

/-- The event of a copy that fails is missing from then on. -/
theorem copySafe_of_kept (hq : Queued h) (hkept : ∀ h', h.step op = some h' → Kept h') :
    CopySafe h op := by
  rintro rfl
  cases hlist : h.con.eventList with
  | nil => rfl
  | cons event rest =>
    have hstep : h.step (.getNextEvent false)
        = some ⟨{ h.con with eventList := rest }, h.enqueued ++ [], h.returned ++ []⟩ := by
      simp only [step, call_failed_copy hlist, Option.map_some]
      rfl
    have horder : h.enqueued ++ [] = h.returned ++ [] ++ rest := (hkept _ hstep).order
    rw [List.append_nil, List.append_nil, hq.order, hlist] at horder
    exact absurd (List.append_cancel_left horder) (List.cons_ne_self event rest)

/-- **The queue neither loses nor reorders events exactly if no copy to the process fails while
there is an event to copy.** For every set of timelines that exist when the file is opened and every
sequence of calls: this is what it takes for what was returned and what is queued to make up what
was enqueued, in its order, and for `poll` to report data if and only if the queue is not empty, at
any time; and it is what it takes for failing calls to leave the queue. -/
theorem event_queue_iff (timelines : List (QotTimeline × Bool)) (ops : List ConOp) :
    (Runs.AllStates step Kept (opened timelines) ops
        ↔ Runs.AllSteps step CopySafe (opened timelines) ops)
      ∧ (Runs.AllSteps step FailureLeaves (opened timelines) ops
        ↔ Runs.AllSteps step CopySafe (opened timelines) ops) := by
  have hopened := queued_opened timelines
  have hpreserved : ∀ h op h', Queued h → CopySafe h op → h.step op = some h' → Queued h' :=
    fun _ _ _ hq hsafe hstep => queued_step hq hsafe hstep
  constructor
  · exact Runs.allStates_iff_allSteps (fun _ => Queued.kept) hpreserved
      (fun _ _ hq => copySafe_of_kept hq) hopened
  · exact Runs.allSteps_iff_of_inv
      (fun _ _ _ => ⟨copySafe_of_failureLeaves, failureLeaves_of_copySafe⟩) hpreserved hopened

def timelineA : QotTimeline := ⟨nameA, 0, .qotTimelineLocal⟩

/-- **A copy that fails loses an event.** The file is opened while one timeline exists, and the
process asks for the event with a bad pointer. -/
theorem failed_copy_loses_event :
    (opened [(timelineA, true)]).con.qotUserChdevPoll = true
      ∧ ((Runs.exec step (opened [(timelineA, true)]) [.getNextEvent false]).map
          fun h => (h.enqueued.length, h.returned, h.con.eventList)) = some (1, [], [])
      ∧ ¬ Runs.AllStates step Kept (opened [(timelineA, true)]) [.getNextEvent false]
      ∧ ¬ Runs.AllSteps step FailureLeaves (opened [(timelineA, true)]) [.getNextEvent false] := by
  refine ⟨by decide, by decide, fun h => ?_, fun h => ?_⟩
  · have horder := (h.2 _ rfl).order
    revert horder
    decide
  · have hsame := h.1 (-eacces) none ⟨true, []⟩ (by decide) (by decide)
    revert hsame
    decide

end ConHistory

end Qot
