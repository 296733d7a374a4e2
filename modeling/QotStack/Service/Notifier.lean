import Mathlib.Data.Finset.Basic
import Mathlib.Data.List.TakeWhile
import QotStack.Lib.Runs

/-!
# QotStack — the timelines the daemon manages (`service/Notifier.cpp`)

The daemon manages one object for each timeline device. At its start it goes through the directory
`/dev` and adds a timeline for each device it finds; then it starts a thread that has the directory
watched, and adds and deletes timelines as inotify reports them.

The constructor and the thread are one sequence of steps; between any two of them devices are
created and deleted. What has changed since the directory was opened may or may not be read from it,
and only what changes after the watch has been added is reported. So a device that comes or goes in
between is missed: `tracks_iff` says when this happens, and that nothing else goes wrong.

The system calls may fail. The objects themselves are left out, and so are the log messages.
-/

namespace Qot

/-! ## Names -/

/-- `isspace`. -/
def isSpace (c : Char) : Bool := c = ' ' || ('\t' ≤ c && c ≤ '\r')

/-- The conversion `%s` with a width: a word, and what is left. -/
def scanWord (width : Nat) (s : List Char) : Option (List Char × List Char) :=
  let s := s.dropWhile isSpace
  let word := (s.take width).takeWhile fun c => !isSpace c
  if word = [] then none else some (word, s.drop word.length)

/-- The conversion `%d`. A number that is too large is cut to 32 bits. -/
def scanDecimal (s : List Char) : Option Int32 :=
  let s := s.dropWhile isSpace
  let negative := s.head? = some '-'
  let s := if negative ∨ s.head? = some '+' then s.tail else s
  let digits := s.takeWhile Char.isDigit
  if digits = [] then none
  else
    let val : Int := Nat.ofDigitChars 10 digits 0
    some (Int32.ofInt (if negative then -val else val))

def qotIoctlTimeline : List Char := "timeline".toList

/-- The timeline a file of the directory is taken for: `QOT_IOCTL_FORMAT` matches, and the word is
`QOT_IOCTL_TIMELINE`. -/
def timelineOfName (name : List Char) : Option Int32 := do
  let (str, rest) ← scanWord 8 name
  let val ← scanDecimal rest
  if str = qotIoctlTimeline then some val else none

def printDecimal (n : Int) : List Char :=
  if n < 0 then '-' :: Nat.toDigits 10 n.natAbs else Nat.toDigits 10 n.natAbs

/-- A file of the directory: the device of a timeline, or a file that is not taken for one. -/
inductive DevEntry where
  | timeline (id : Int32)
  | other (name : { s : List Char // timelineOfName s = none })
  deriving DecidableEq

def DevEntry.name : DevEntry → List Char
  | .timeline id => qotIoctlTimeline ++ printDecimal id.toInt
  | .other name => name.val

/-- The timeline whose device it is. -/
def DevEntry.id? : DevEntry → Option Int32
  | .timeline id => some id
  | .other _ => none

theorem isSpace_eq_false_of_isDigit {c : Char} (h : c.isDigit = true) : isSpace c = false := by
  simp only [Char.isDigit, Bool.and_eq_true, decide_eq_true_eq, ge_iff_le] at h
  have hle : ¬ c ≤ '\r' := fun hle => absurd (UInt32.le_trans h.1 hle) (by decide)
  have hne : c ≠ ' ' := by
    rintro rfl
    exact absurd h.1 (by decide)
  simp [isSpace, hle, hne]

/-- Digits are read up to the end. -/
theorem scanDecimal_digits (negative : Bool) {digits : List Char} (hne : digits ≠ [])
    (hdigits : ∀ c ∈ digits, c.isDigit = true) :
    scanDecimal (if negative then '-' :: digits else digits)
      = some (Int32.ofInt (if negative then -(Nat.ofDigitChars 10 digits 0 : Int)
          else (Nat.ofDigitChars 10 digits 0 : Int))) := by
  have htake : digits.takeWhile Char.isDigit = digits := List.takeWhile_eq_self_iff.mpr hdigits
  cases negative with
  | true =>
    have hspace : ('-' :: digits).dropWhile isSpace = '-' :: digits := rfl
    simp [scanDecimal, hspace, htake, hne]
  | false =>
    obtain ⟨c, cs, rfl⟩ := List.exists_cons_of_ne_nil hne
    have hc : c.isDigit = true := hdigits c List.mem_cons_self
    have hspace : (c :: cs).dropWhile isSpace = c :: cs := by
      rw [List.dropWhile_cons, isSpace_eq_false_of_isDigit hc]
      rfl
    have hminus : c ≠ '-' := by
      rintro rfl
      cases hc
    have hplus : c ≠ '+' := by
      rintro rfl
      cases hc
    simp only [scanDecimal, Bool.false_eq_true, if_false, hspace, List.head?_cons,
      Option.some.injEq, hminus, hplus, or_self, htake, hne]

theorem scanDecimal_printDecimal (n : Int) :
    scanDecimal (printDecimal n) = some (Int32.ofInt n) := by
  have hscan := scanDecimal_digits (decide (n < 0)) (Nat.toDigits_ne_nil (b := 10))
    fun c hc => Nat.isDigit_of_mem_toDigits (n := n.natAbs) (by decide) (by decide) hc
  simp only [decide_eq_true_eq, Nat.ofDigitChars_toDigits (b := 10) (by decide)
    (by decide)] at hscan
  rw [printDecimal, hscan]
  congr 2
  split <;> omega

/-- The name of a device tells its timeline, and no other file is taken for one. -/
theorem timelineOfName_name (e : DevEntry) : timelineOfName e.name = e.id? := by
  cases e with
  | timeline id =>
    have hword : scanWord 8 (qotIoctlTimeline ++ printDecimal id.toInt)
        = some (qotIoctlTimeline, printDecimal id.toInt) := rfl
    simp only [DevEntry.name, DevEntry.id?, timelineOfName, hword, scanDecimal_printDecimal,
      Int32.ofInt_toInt, Option.bind_eq_bind, Option.bind_some, if_true]
  | other name => exact name.property

/-! ## The notifier -/

inductive InotifyMask where
  | inCreate
  | inDelete
  deriving DecidableEq, Repr

structure InotifyEvent where
  mask : InotifyMask
  name : List Char
  deriving DecidableEq, Repr

/-- Where the notifier is: it has not opened the directory, is reading it, is about to add the
watch, has added it, or has given up. While it reads, `owed` are the files that have been there all
the time and have not been read, and `possible` those that have been there at some time. -/
inductive NotifierPhase where
  | starting
  | scanning (owed possible : Finset DevEntry)
  | scanned
  | watching
  | stopped
  deriving DecidableEq

/-- The directory, the notifier with the timelines it manages, and the events that have not been
handled. -/
structure Notifier where
  entries : Finset DevEntry
  phase : NotifierPhase
  timelines : Finset Int32
  events : List InotifyEvent
  deriving DecidableEq

def addTimeline (timelines : Finset Int32) (id : Int32) : Finset Int32 :=
  if id ∈ timelines then timelines else insert id timelines

def delTimeline (timelines : Finset Int32) (id : Int32) : Finset Int32 :=
  if id ∈ timelines then timelines.erase id else timelines

def handleEvent (timelines : Finset Int32) (event : InotifyEvent) : Finset Int32 :=
  match timelineOfName event.name with
  | none => timelines
  | some val =>
    match event.mask with
    | .inCreate => addTimeline timelines val
    | .inDelete => delTimeline timelines val

def handleDirent (timelines : Finset Int32) (name : List Char) : Finset Int32 :=
  match timelineOfName name with
  | none => timelines
  | some val => addTimeline timelines val

inductive NotifierOp where
  | create (e : DevEntry)
  | delete (e : DevEntry)
  | opendir (opened : Bool)
  | readdir (e : DevEntry)
  | closedir
  | watch (added : Bool)
  | handle
  /-- `poll` or `read` fails -/
  | fail
  deriving DecidableEq

namespace Notifier

def start (entries : Finset DevEntry) : Notifier := ⟨entries, .starting, ∅, []⟩

/-- The directory has changed; a watch reports it. -/
def changed (n : Notifier) (mask : InotifyMask) (e : DevEntry) (entries : Finset DevEntry) :
    Notifier :=
  match n.phase with
  | .watching => { n with entries := entries, events := n.events ++ [⟨mask, e.name⟩] }
  | .scanning owed possible =>
    { n with entries := entries, phase := .scanning (owed.erase e) (insert e possible) }
  | .starting | .scanned | .stopped => { n with entries := entries }

def step (n : Notifier) : NotifierOp → Option Notifier
  | .create e => if e ∈ n.entries then none else some (n.changed .inCreate e (insert e n.entries))
  | .delete e => if e ∈ n.entries then some (n.changed .inDelete e (n.entries.erase e)) else none
  | .opendir opened =>
    match n.phase with
    | .starting =>
      some { n with phase := if opened then .scanning n.entries n.entries else .stopped }
    | _ => none
  | .readdir e =>
    match n.phase with
    | .scanning owed possible =>
      if e ∈ possible then
        some { n with
          phase := .scanning (owed.erase e) possible
          timelines := handleDirent n.timelines e.name }
      else none
    | _ => none
  | .closedir =>
    match n.phase with
    | .scanning owed _ => if owed = ∅ then some { n with phase := .scanned } else none
    | _ => none
  | .watch added =>
    match n.phase with
    | .scanned => some { n with phase := if added then .watching else .stopped }
    | _ => none
  | .handle =>
    match n.phase, n.events with
    | .watching, event :: events =>
      some { n with timelines := handleEvent n.timelines event, events := events }
    | _, _ => none
  | .fail =>
    match n.phase with
    | .watching => some { n with phase := .stopped, events := [] }
    | _ => none

/-- `timelines` are those that have a device among the files. -/
def TimelinesOf (entries : Finset DevEntry) (timelines : Finset Int32) : Prop :=
  ∀ id, id ∈ timelines ↔ .timeline id ∈ entries

/-- The timelines that are managed are those that have a device. -/
def Tracks (n : Notifier) : Prop := TimelinesOf n.entries n.timelines

/-- The start is over, and all events have been handled. -/
def AtRest (n : Notifier) : Prop :=
  match n.phase with
  | .starting | .scanning _ _ | .scanned => False
  | .watching => n.events = []
  | .stopped => True

/-- The condition: when the watch is added, and when the notifier gives up, the timelines it manages
are those that have a device; and once it has given up, no device of a timeline comes or goes. -/
def Undisturbed (n : Notifier) : NotifierOp → Prop
  | .create e => n.phase = .stopped → e ∉ n.entries → e.id? = none
  | .delete e => n.phase = .stopped → e ∈ n.entries → e.id? = none
  | .opendir opened => n.phase = .starting → opened = false → n.Tracks
  | .readdir _ | .closedir | .handle => True
  | .watch _ => n.phase = .scanned → n.Tracks
  | .fail => n.phase = .watching → n.Tracks

/-! ## What a step does -/

variable {n n' : Notifier} {op : NotifierOp} {timelines : Finset Int32} {e : DevEntry}
  {entries : Finset DevEntry}

/-! ## One change -/

theorem mem_addTimeline {id id' : Int32} :
    id' ∈ addTimeline timelines id ↔ id' = id ∨ id' ∈ timelines := by
  unfold addTimeline
  split
  · next h => exact ⟨Or.inr, fun h' => h'.elim (fun e => e ▸ h) (fun h => h)⟩
  · exact Finset.mem_insert

theorem mem_delTimeline {id id' : Int32} :
    id' ∈ delTimeline timelines id ↔ id' ≠ id ∧ id' ∈ timelines := by
  unfold delTimeline
  split
  · exact Finset.mem_erase
  · next h => exact ⟨fun h' => ⟨fun e => h (e ▸ h'), h'⟩, And.right⟩

theorem mem_handleDirent {id : Int32} :
    id ∈ handleDirent timelines e.name ↔ e = .timeline id ∨ id ∈ timelines := by
  unfold handleDirent
  rw [timelineOfName_name]
  cases e with
  | timeline id' => simp [DevEntry.id?, mem_addTimeline, eq_comm]
  | other name => simp [DevEntry.id?]

/-- An event brings the timelines up to date with the change it reports. -/
theorem handleEvent_create (h : TimelinesOf entries timelines) (e : DevEntry) :
    TimelinesOf (insert e entries) (handleEvent timelines ⟨.inCreate, e.name⟩) := by
  intro id
  have hmem : id ∈ handleEvent timelines ⟨.inCreate, e.name⟩ ↔ e = .timeline id ∨ id ∈ timelines :=
    mem_handleDirent
  rw [hmem, Finset.mem_insert, h id, eq_comm]

theorem handleEvent_delete (h : TimelinesOf entries timelines) (e : DevEntry) :
    TimelinesOf (entries.erase e) (handleEvent timelines ⟨.inDelete, e.name⟩) := by
  intro id
  unfold handleEvent
  rw [timelineOfName_name, Finset.mem_erase, ← h id]
  cases e with
  | timeline id' => simp [DevEntry.id?, mem_delTimeline]
  | other name => simp [DevEntry.id?]

/-- A file that is not the device of a timeline is not looked at. -/
theorem handleEvent_of_id?_eq_none (h : e.id? = none) (timelines : Finset Int32)
    (mask : InotifyMask) : handleEvent timelines ⟨mask, e.name⟩ = timelines := by
  rw [handleEvent, timelineOfName_name, h]

/-! ## Runs -/

/-- What holds before the watch, with it, and after the notifier has given up: there are no events,
or events that make up for the difference, or there is no difference. -/
def Accounts (n : Notifier) : Prop :=
  match n.phase with
  | .starting | .scanning _ _ | .scanned => n.events = []
  | .watching => TimelinesOf n.entries (n.events.foldl handleEvent n.timelines)
  | .stopped => n.events = [] ∧ n.Tracks

theorem accounts_start (entries : Finset DevEntry) : (start entries).Accounts := rfl

theorem tracks_of_atRest (h : n.Accounts) (hrest : n.AtRest) : n.Tracks := by
  unfold Accounts at h
  unfold AtRest at hrest
  split at h
  · next hphase => simp [hphase] at hrest
  · next hphase => simp [hphase] at hrest
  · next hphase => simp [hphase] at hrest
  · next hphase =>
    simp only [hphase] at hrest
    rw [hrest] at h
    exact h
  · exact h.2

/-- A change of the directory, in any phase. -/
theorem accounts_changed (h : n.Accounts) {mask : InotifyMask}
    (hevent : ∀ timelines, TimelinesOf n.entries timelines →
      TimelinesOf entries (handleEvent timelines ⟨mask, e.name⟩))
    (hstopped : n.phase = .stopped → e.id? = none) : (n.changed mask e entries).Accounts := by
  obtain ⟨old, phase, timelines, events⟩ := n
  cases phase with
  | starting => exact h
  | scanning owed possible => exact h
  | scanned => exact h
  | watching =>
    show TimelinesOf entries ((events ++ [_]).foldl handleEvent timelines)
    rw [List.foldl_append]
    exact hevent _ h
  | stopped =>
    refine ⟨h.1, ?_⟩
    have htracks := hevent timelines h.2
    rw [handleEvent_of_id?_eq_none (hstopped rfl)] at htracks
    exact htracks

theorem accounts_step (h : n.Accounts) (hop : n.Undisturbed op) :
    n.step op = some n' → n'.Accounts := by
  obtain ⟨entries, phase, timelines, events⟩ := n
  -- the cases are the operations, each in the phase in which it takes place
  fun_cases step ⟨entries, phase, timelines, events⟩ op with
  | case2 e he => -- create
    rintro ⟨⟩
    exact accounts_changed h (fun _ ht => handleEvent_create ht _) fun hphase => hop hphase he
  | case3 e he => -- delete
    rintro ⟨⟩
    exact accounts_changed h (fun _ ht => handleEvent_delete ht _) fun hphase => hop hphase he
  | case5 opened hphase => -- opendir
    rintro ⟨⟩
    cases hphase
    cases opened with
    | true => exact h
    | false => exact ⟨h, hop rfl rfl⟩
  | case7 e owed possible hphase he => -- readdir
    rintro ⟨⟩
    cases hphase
    exact h
  | case10 possible hphase => -- closedir
    rintro ⟨⟩
    cases hphase
    exact h
  | case13 added hphase => -- watch
    rintro ⟨⟩
    cases hphase
    have hnone : events = [] := h
    cases added with
    | true =>
      -- there are no events yet that would make up for a difference
      show TimelinesOf entries (events.foldl handleEvent timelines)
      rw [hnone]
      exact hop rfl
    | false => exact ⟨hnone, hop rfl⟩
  | case15 event rest hevents hphase => -- handle
    rintro ⟨⟩
    cases hphase
    cases hevents
    exact h
  | case17 hphase => -- fail
    rintro ⟨⟩
    cases hphase
    exact ⟨rfl, hop rfl⟩
  | _ => exact nofun

/-- A file whose change makes no difference is not the device of a timeline. -/
theorem id?_eq_none_of_timelinesOf {entries' : Finset DevEntry} (h : TimelinesOf entries timelines)
    (h' : TimelinesOf entries' timelines) (he : ¬ (e ∈ entries ↔ e ∈ entries')) : e.id? = none := by
  cases e with
  | timeline id => exact absurd ((h id).symm.trans (h' id)) he
  | other name => rfl

/-- A step that misses the condition ends at rest with a difference. -/
theorem undisturbed_of_tracks (h : n.Accounts)
    (hop : ∀ n', n.step op = some n' → n'.AtRest → n'.Tracks) : n.Undisturbed op := by
  obtain ⟨entries, phase, timelines, events⟩ := n
  cases op with
  | create e =>
    rintro ⟨⟩ he
    have htracks := hop ⟨insert e entries, .stopped, timelines, events⟩ (if_neg he) trivial
    refine id?_eq_none_of_timelinesOf h.2 htracks fun hiff => ?_
    exact he (hiff.mpr (Finset.mem_insert_self e entries))
  | delete e =>
    rintro ⟨⟩ he
    have htracks := hop ⟨entries.erase e, .stopped, timelines, events⟩ (if_pos he) trivial
    refine id?_eq_none_of_timelinesOf h.2 htracks fun hiff => ?_
    exact Finset.notMem_erase e entries (hiff.mp he)
  | opendir opened =>
    rintro ⟨⟩ rfl
    exact hop ⟨entries, .stopped, timelines, events⟩ rfl trivial
  | readdir e => trivial
  | closedir => trivial
  | watch added =>
    rintro ⟨⟩
    have hnone : events = [] := h
    cases added with
    | true => exact hop ⟨entries, .watching, timelines, events⟩ rfl hnone
    | false => exact hop ⟨entries, .stopped, timelines, events⟩ rfl trivial
  | handle => trivial
  | fail =>
    rintro ⟨⟩
    exact hop ⟨entries, .stopped, timelines, []⟩ rfl trivial

/-- **The daemon tracks the existing timelines exactly if its start is undisturbed.** For every
directory and every interleaving of the creation and deletion of devices and other files with the
start of the notifier and its handling of events, failures of its system calls among them: whenever
all events have been handled, the timelines it manages are exactly those that have a device, if and
only if this is so at the moment the watch is added, and, where the notifier gives up, from that
moment on. -/
theorem tracks_iff (entries : Finset DevEntry) (ops : List NotifierOp) :
    Runs.AllStates step (fun n => n.AtRest → n.Tracks) (start entries) ops
      ↔ Runs.AllSteps step Undisturbed (start entries) ops :=
  Runs.allStates_iff_allSteps (J := Accounts) (fun _ h hrest => tracks_of_atRest h hrest)
    (fun _ _ _ h hop hstep => accounts_step h hop hstep)
    (fun _ _ h hop => undisturbed_of_tracks h hop)
    (accounts_start entries)

/-- **A device that comes between the scan and the watch is missed**, and one that goes is never
forgotten, although all events have been handled. -/
theorem device_missed :
    Runs.exec step (start ∅) [.opendir true, .closedir, .create (.timeline 3), .watch true]
        = some ⟨{.timeline 3}, .watching, ∅, []⟩
      ∧ Runs.exec step (start {.timeline 3})
          [.opendir true, .readdir (.timeline 3), .closedir, .delete (.timeline 3), .watch true]
        = some ⟨∅, .watching, {3}, []⟩
      ∧ ¬ Runs.AllStates step (fun n => n.AtRest → n.Tracks) (start ∅)
          [.opendir true, .closedir, .create (.timeline 3), .watch true] := by
  have hmissed : Runs.exec step (start ∅)
      [.opendir true, .closedir, .create (.timeline 3), .watch true]
      = some ⟨{.timeline 3}, .watching, ∅, []⟩ := by decide
  refine ⟨hmissed, by decide, fun h => ?_⟩
  have htracks : TimelinesOf {.timeline 3} ∅ := h.exec hmissed rfl
  exact absurd ((htracks 3).mpr (Finset.mem_singleton_self _)) (Finset.notMem_empty 3)

/-! ## A quiet start -/

/-- Nothing fails, and no device of a timeline comes or goes while the directory is read or before
the watch is added. -/
def Quiet (n : Notifier) : NotifierOp → Prop
  | .create e | .delete e => e.id? = none ∨ n.phase = .starting ∨ n.phase = .watching
  | .opendir opened => opened = true
  | .watch added => added = true
  | .fail => False
  | .readdir _ | .closedir | .handle => True

/-- What the scan has found, if nothing comes or goes. -/
def Scans (n : Notifier) : Prop :=
  match n.phase with
  | .starting => n.timelines = ∅
  | .scanning owed possible => (∀ id, .timeline id ∈ possible → .timeline id ∈ n.entries)
    ∧ ∀ id, id ∈ n.timelines ↔ .timeline id ∈ n.entries ∧ .timeline id ∉ owed
  | .scanned => n.Tracks
  | .watching => True
  | .stopped => False

theorem timeline_ne (h : e.id? = none) (id : Int32) : DevEntry.timeline id ≠ e := by
  rintro rfl
  cases h

theorem scans_changed (h : n.Scans) {mask : InotifyMask}
    (hentries : ∀ e', e' ≠ e → (e' ∈ entries ↔ e' ∈ n.entries))
    (hquiet : e.id? = none ∨ n.phase = .starting ∨ n.phase = .watching) :
    (n.changed mask e entries).Scans := by
  obtain ⟨old, phase, timelines, events⟩ := n
  cases phase with
  | starting => exact h
  | watching => trivial
  | stopped => exact h
  | scanning owed possible =>
    have he : e.id? = none := by simpa using hquiet
    have hne := timeline_ne he
    refine ⟨fun id hid => ?_, fun id => ?_⟩
    · have hold := Finset.mem_of_mem_insert_of_ne hid (hne id)
      exact (hentries _ (hne id)).mpr (h.1 id hold)
    · rw [Finset.mem_erase]
      refine (h.2 id).trans (and_congr (hentries _ (hne id)).symm ?_)
      exact ⟨fun hn ho => hn ho.2, fun hn ho => hn ⟨hne id, ho⟩⟩
  | scanned =>
    have he : e.id? = none := by simpa using hquiet
    exact fun id => (h id).trans (hentries _ (timeline_ne he id)).symm

theorem scans_step (h : n.Scans) (hop : n.Quiet op) : n.step op = some n' → n'.Scans := by
  obtain ⟨entries, phase, timelines, events⟩ := n
  fun_cases step ⟨entries, phase, timelines, events⟩ op with
  | case2 e he => -- create
    rintro ⟨⟩
    refine scans_changed h (fun e' he' => ?_) hop
    exact ⟨fun hm => Finset.mem_of_mem_insert_of_ne hm he', Finset.mem_insert_of_mem⟩
  | case3 e he => -- delete
    rintro ⟨⟩
    refine scans_changed h (fun e' he' => ?_) hop
    exact ⟨Finset.mem_of_mem_erase, fun hm => Finset.mem_erase.mpr ⟨he', hm⟩⟩
  | case5 opened hphase => -- opendir
    rintro ⟨⟩
    cases hphase
    cases hop
    have hnone : timelines = ∅ := h
    subst hnone
    refine ⟨fun _ hid => hid, fun id => ?_⟩
    exact ⟨fun hid => absurd hid (Finset.notMem_empty id), fun hid => absurd hid.1 hid.2⟩
  | case7 e owed possible hphase he => -- readdir
    rintro ⟨⟩
    cases hphase
    refine ⟨h.1, fun id => ?_⟩
    rw [mem_handleDirent, h.2 id, Finset.mem_erase]
    by_cases heq : e = .timeline id
    · cases heq
      simpa using h.1 id he
    · simp [heq, Ne.symm heq]
  | case10 possible hphase => -- closedir
    rintro ⟨⟩
    cases hphase
    intro id
    rw [h.2 id]
    exact ⟨And.left, fun hid => ⟨hid, Finset.notMem_empty _⟩⟩
  | case13 added hphase => -- watch
    rintro ⟨⟩
    cases hop
    trivial
  | case15 event rest hevents hphase => -- handle
    rintro ⟨⟩
    cases hphase
    trivial
  | case17 hphase => exact hop.elim
  | _ => exact nofun

/-- The scan finds every device, so that a quiet start is undisturbed. -/
theorem undisturbed_of_quiet {ops : List NotifierOp}
    (h : Runs.AllSteps step Quiet (start entries) ops) :
    Runs.AllSteps step Undisturbed (start entries) ops := by
  refine Runs.allSteps_of_inv (J := Scans) ?_ (fun _ _ _ hn hop hstep => scans_step hn hop hstep)
    rfl h
  intro n op hn hop
  obtain ⟨entries, phase, timelines, events⟩ := n
  cases op with
  | create e =>
    rintro ⟨⟩ -
    exact hn.elim
  | delete e =>
    rintro ⟨⟩ -
    exact hn.elim
  | opendir opened =>
    rintro - rfl
    cases hop
  | readdir e => trivial
  | closedir => trivial
  | watch added =>
    rintro ⟨⟩
    exact hn
  | handle => trivial
  | fail => exact hop.elim

/-- **After a quiet start the daemon tracks the timelines.** Whatever comes and goes before it
starts or once the watch is there, in whatever order the events are handled, and whatever else
appears in the directory at any time: whenever all events have been handled, the timelines it
manages are those that have a device. -/
theorem quiet_start_tracks (entries : Finset DevEntry) (ops : List NotifierOp)
    (h : Runs.AllSteps step Quiet (start entries) ops) :
    Runs.AllStates step (fun n => n.AtRest → n.Tracks) (start entries) ops :=
  Runs.allStates_of_inv (fun _ hn hrest => tracks_of_atRest hn hrest)
    (fun _ _ _ hn hop hstep => accounts_step hn hop hstep) (accounts_start entries)
    (undisturbed_of_quiet h)

theorem quiet_start_tracks_found :
    Runs.exec step (start {.timeline 3})
        [.opendir true, .readdir (.timeline 3), .closedir, .watch true]
        = some ⟨{.timeline 3}, .watching, {3}, []⟩
      ∧ Runs.AllStates step (fun n => n.AtRest → n.Tracks) (start {.timeline 3})
        [.opendir true, .readdir (.timeline 3), .closedir, .watch true] :=
  ⟨by decide, quiet_start_tracks _ _ ⟨rfl, fun _ _ => ⟨trivial, fun _ _ => ⟨trivial, fun _ _ =>
    ⟨rfl, fun _ _ => trivial⟩⟩⟩⟩⟩

end Notifier

end Qot
