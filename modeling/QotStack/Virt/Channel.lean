import Mathlib.Logic.Function.Basic
import QotStack.Lib.Runs

/-!
# QotStack — the channel between the guests and the host daemon

A guest sends its message to the daemon over a serial port, and gets it back with the answer in it
(`send_message`, in `qot_virtguest.c`). The port is a stream of bytes. The guest writes and reads in
loops, and if a read comes up short it closes the port and starts over; the answer is read into the
message itself. The daemon does one `read` for a message and one `send` for the answer.

`exchanges_exact` says that the daemon handles exactly the messages the callers passed in, once
each, and that a caller gets the answer to its own, in every run whose steps are `ChannelSafe`: the
daemon reads whole messages, and no read or write of a guest fails or comes to the end of the
stream.

The contents of the messages do not matter here, and the daemon's answer may be any message.
-/

namespace Qot

open Runs

/-- `sizeof(qot_virtmsg_t)`: a timeline (name, index, type), three lengths, the type and the
result. -/
def sizeofVirtmsg : Nat := 64 + 4 + 4 + 3 * 16 + 4 + 4

/-- The bytes of a message. -/
structure RawVirtmsg where
  bytes : List UInt8
  length_eq : bytes.length = sizeofVirtmsg

/-! ## The guest -/

/-- Where a guest is in `send_message`: in `safewrite` with bytes left, waiting in `safepoll`, or in
`saferead` with bytes got. -/
inductive GuestPc where
  | idle
  | writing (left : List UInt8)
  | waiting
  | reading (got : Nat)
  deriving DecidableEq, Repr

/-- A guest and its port: the bytes on the way in both directions, and the message of the call.
`request` is the message as the caller passed it in, and `returned` has for each call that returned
OK what it passed in and what it found in the message then; no code reads them. -/
structure GuestPort where
  pc : GuestPc
  message : List UInt8
  toHost : List UInt8
  toGuest : List UInt8
  request : List UInt8
  returned : List (List UInt8 × List UInt8)
  deriving DecidableEq, Repr

/-- What `read` or `write` returns: some bytes, `-1` with `EINTR` or `EAGAIN`, `0`, or `-1` with
another error number. -/
inductive IoResult where
  | bytes (n : Nat)
  | interrupted
  | zero
  | failed (errno : Int32)
  deriving DecidableEq, Repr

/-- A round of the loop of `safewrite`. A failure ends the process (`error`). -/
def GuestPort.safewrite (p : GuestPort) (left : List UInt8) : IoResult → Option GuestPort
  | .bytes n =>
    if 0 < n ∧ n ≤ left.length then
      some { p with
        toHost := p.toHost ++ left.take n
        pc := if n = left.length then .waiting else .writing (left.drop n) }
    else none
  | .interrupted => some p
  | .zero => some { p with pc := .waiting }
  | .failed _ => some { p with pc := .idle }

/-- `ret < sizeof(qot_virtmsg_t)`: the comparison is between unsigned numbers. -/
def outOfSync (ret : Int32) : Bool := ret.toInt64.toUInt64 < sizeofVirtmsg.toUInt64

/-- After `saferead`: close the port, and start over or return OK. Closing may discard what has
arrived. -/
def GuestPort.afterRead (p : GuestPort) (ret : Int32) (discarded : Bool) : GuestPort :=
  let p := { p with toGuest := if discarded then [] else p.toGuest }
  if outOfSync ret then { p with pc := .writing p.message }
  else { p with pc := .idle, returned := p.returned ++ [(p.request, p.message)] }

/-- A round of the loop of `saferead`, into the message. -/
def GuestPort.saferead (p : GuestPort) (got : Nat) (discarded : Bool) : IoResult → Option GuestPort
  | .bytes n =>
    if 0 < n ∧ n ≤ sizeofVirtmsg - got ∧ n ≤ p.toGuest.length then
      let p := { p with
        message := p.message.take got ++ p.toGuest.take n ++ p.message.drop (got + n)
        toGuest := p.toGuest.drop n }
      if got + n = sizeofVirtmsg then some (p.afterRead sizeofVirtmsg.toInt32 discarded)
      else some { p with pc := .reading (got + n) }
    else none
  | .interrupted => some p
  | .zero => some (p.afterRead got.toInt32 discarded)
  | .failed errno => if 0 < errno then some (p.afterRead (-errno) discarded) else none

inductive GuestOp where
  /-- a caller calls `send_message` -/
  | call (message : RawVirtmsg)
  | write (result : IoResult)
  /-- `safepoll` reports data -/
  | poll
  | read (result : IoResult) (discarded : Bool)
  /-- the process ends, because the port cannot be opened or the poll fails -/
  | exit

def guestStep (p : GuestPort) (op : GuestOp) : Option GuestPort :=
  match op, p.pc with
  | .call message, .idle =>
    some { p with
      pc := .writing message.bytes, message := message.bytes, request := message.bytes }
  | .write result, .writing left => p.safewrite left result
  | .poll, .waiting => if p.toGuest ≠ [] then some { p with pc := .reading 0 } else none
  | .read result discarded, .reading got => p.saferead got discarded result
  | .exit, .idle => none
  | .exit, _ => some { p with pc := .idle }
  | _, _ => none

/-! ## The daemon -/

/-- The guests, and the daemon with its message buffer, which it has for all of them. `handled`
lists the messages it handled, with the guest and the answer. -/
structure VirtChannel where
  ports : Nat → GuestPort
  virtmsg : List UInt8
  handled : List (Nat × List UInt8 × List UInt8)

/-- Handle what is in the buffer and send it back; the result of `send` is not looked at. -/
def VirtChannel.handle (s : VirtChannel) (guest : Nat) (reply : RawVirtmsg) (sent : Nat) :
    VirtChannel where
  ports := Function.update s.ports guest
    { s.ports guest with toGuest := (s.ports guest).toGuest ++ reply.bytes.take sent }
  virtmsg := reply.bytes
  handled := s.handled ++ [(guest, s.virtmsg, reply.bytes)]

/-- The daemon reads from a guest. Only a result of `0` is told from a message. -/
def VirtChannel.hostRead (s : VirtChannel) (guest : Nat) (reply : RawVirtmsg) (sent : Nat) :
    IoResult → Option VirtChannel
  | .bytes n =>
    let p := s.ports guest
    if 0 < n ∧ n ≤ sizeofVirtmsg ∧ n ≤ p.toHost.length then
      some (VirtChannel.handle
        { s with
          ports := Function.update s.ports guest { p with toHost := p.toHost.drop n }
          virtmsg := p.toHost.take n ++ s.virtmsg.drop n } guest reply sent)
    else none
  | .zero => some s
  | .interrupted => some (s.handle guest reply sent)
  | .failed _ => some (s.handle guest reply sent)

inductive ChannelOp where
  | guest (guest : Nat) (op : GuestOp)
  | hostRead (guest : Nat) (result : IoResult) (reply : RawVirtmsg) (sent : Nat)

def channelStep (s : VirtChannel) : ChannelOp → Option VirtChannel
  | .guest guest op =>
    (guestStep (s.ports guest) op).map fun p => { s with ports := Function.update s.ports guest p }
  | .hostRead guest result reply sent => s.hostRead guest reply sent result

def VirtChannel.connected : VirtChannel where
  ports := fun _ => ⟨.idle, [], [], [], [], []⟩
  virtmsg := List.replicate sizeofVirtmsg 0
  handled := []

/-! ## The exchanges -/

/-- The messages of a guest that the daemon handled, with the answers. -/
def handledOf (guest : Nat) (handled : List (Nat × List UInt8 × List UInt8)) :
    List (List UInt8 × List UInt8) :=
  handled.filterMap fun e => if e.1 = guest then some e.2 else none

/-- The messages of a guest that were handled are those of the calls that returned OK, each with the
answer its caller found, and that of the call in progress or not. -/
def Exact (p : GuestPort) (handled : List (List UInt8 × List UInt8)) : Prop :=
  handled = p.returned
    ∨ p.pc ≠ .idle ∧ ∃ reply, handled = p.returned ++ [(p.request, reply)]

def ExchangesExact (s : VirtChannel) : Prop :=
  ∀ guest, Exact (s.ports guest) (handledOf guest s.handled)

/-- Some bytes, or an interruption after which the loop goes on. -/
def IoResult.Progress : IoResult → Prop
  | .bytes _ => True
  | .interrupted => True
  | _ => False

/-- The reads and writes of the guests are interrupted at most, a process ends before it has written
anything, and the daemon reads a message and sends the answer in one piece. -/
def ChannelSafe (s : VirtChannel) : ChannelOp → Prop
  | .guest _ (.write result) => result.Progress
  | .guest _ (.read result _) => result.Progress
  | .guest guest .exit => (s.ports guest).pc = .writing (s.ports guest).request
  | .guest _ _ => True
  | .hostRead _ result _ sent =>
    result = .zero ∨ result = .bytes sizeofVirtmsg ∧ sent = sizeofVirtmsg

instance (r : IoResult) : Decidable r.Progress := by
  unfold IoResult.Progress
  split <;> infer_instance

instance (s : VirtChannel) (op : ChannelOp) : Decidable (ChannelSafe s op) := by
  unfold ChannelSafe
  split <;> infer_instance

/-! ## What is on the way -/

/-- The whole request is on its way, and has not been read. -/
structure Unanswered (p : GuestPort) (handled : List (List UInt8 × List UInt8)) : Prop where
  toHost : p.toHost = p.request
  toGuest : p.toGuest = []
  handled : handled = p.returned

/-- The request has been handled; the first `got` bytes of the answer are in the message, and the
rest is on its way. -/
structure Answered (p : GuestPort) (handled : List (List UInt8 × List UInt8)) (got : Nat)
    (reply : List UInt8) : Prop where
  toHost : p.toHost = []
  length : reply.length = sizeofVirtmsg
  got_lt : got < sizeofVirtmsg
  stored : p.message.take got = reply.take got
  toGuest : p.toGuest = reply.drop got
  handled : handled = p.returned ++ [(p.request, reply)]

/-- The stream of a guest holds what its place in `send_message` says. -/
structure PortInv (p : GuestPort) (handled : List (List UInt8 × List UInt8)) : Prop where
  request : p.pc ≠ .idle → p.request.length = sizeofVirtmsg ∧ p.message.length = sizeofVirtmsg
  stream : match p.pc with
    | .idle => p.toHost = [] ∧ p.toGuest = [] ∧ handled = p.returned
    | .writing left => p.toHost ++ left = p.request ∧ left ≠ [] ∧ p.toGuest = []
        ∧ handled = p.returned
    | .waiting => Unanswered p handled ∨ ∃ reply, Answered p handled 0 reply
    | .reading got => ∃ reply, Answered p handled got reply

namespace PortInv
variable {p : GuestPort} {handled : List (List UInt8 × List UInt8)} (h : PortInv p handled)
include h

theorem idle (hpc : p.pc = .idle) : p.toHost = [] ∧ p.toGuest = [] ∧ handled = p.returned := by
  simpa only [hpc] using h.stream

theorem writing {left : List UInt8} (hpc : p.pc = .writing left) :
    p.toHost ++ left = p.request ∧ left ≠ [] ∧ p.toGuest = [] ∧ handled = p.returned := by
  simpa only [hpc] using h.stream

theorem waiting (hpc : p.pc = .waiting) :
    Unanswered p handled ∨ ∃ reply, Answered p handled 0 reply := by
  simpa only [hpc] using h.stream

theorem reading {got : Nat} (hpc : p.pc = .reading got) :
    ∃ reply, Answered p handled got reply := by
  simpa only [hpc] using h.stream

theorem exact : Exact p handled := by
  cases hpc : p.pc with
  | idle => exact Or.inl (h.idle hpc).2.2
  | writing left => exact Or.inl (h.writing hpc).2.2.2
  | waiting =>
    rcases h.waiting hpc with hun | ⟨reply, hans⟩
    · exact Or.inl hun.handled
    · exact Or.inr ⟨by simp [hpc], reply, hans.handled⟩
  | reading got =>
    obtain ⟨reply, hans⟩ := h.reading hpc
    exact Or.inr ⟨by simp [hpc], reply, hans.handled⟩

end PortInv

/-! ## The steps -/

section
variable {p p' : GuestPort} {handled : List (List UInt8 × List UInt8)}

theorem PortInv.safewrite {left : List UInt8} {result : IoResult} (h : PortInv p handled)
    (hpc : p.pc = .writing left) (hg : result.Progress)
    (hstep : p.safewrite left result = some p') : PortInv p' handled := by
  obtain ⟨hsplit, hleft, htoGuest, hhandled⟩ := h.writing hpc
  have hlength := h.request (by simp [hpc])
  cases result with
  | zero => exact absurd hg id
  | failed errno => exact absurd hg id
  | interrupted =>
    cases hstep
    exact h
  | bytes n =>
    simp only [GuestPort.safewrite] at hstep
    split at hstep
    · rename_i hn
      cases hstep
      refine ⟨fun _ => hlength, ?_⟩
      by_cases hall : n = left.length
      · -- the last bytes are written
        simp only [if_pos hall]
        refine Or.inl ⟨?_, htoGuest, hhandled⟩
        show p.toHost ++ left.take n = p.request
        rw [hall, List.take_length, hsplit]
      · simp only [if_neg hall]
        refine ⟨?_, ?_, htoGuest, hhandled⟩
        · rw [List.append_assoc, List.take_append_drop, hsplit]
        · simp only [ne_eq, List.drop_eq_nil_iff]
          omega
    · simp at hstep

/-- A read that fills the message returns OK. -/
theorem outOfSync_full : outOfSync sizeofVirtmsg.toInt32 = false := by decide

theorem PortInv.saferead {got : Nat} {discarded : Bool} {result : IoResult}
    (h : PortInv p handled) (hpc : p.pc = .reading got) (hg : result.Progress)
    (hstep : p.saferead got discarded result = some p') : PortInv p' handled := by
  obtain ⟨reply, hans⟩ := h.reading hpc
  have hlength := h.request (by simp [hpc])
  cases result with
  | zero => exact absurd hg id
  | failed errno => exact absurd hg id
  | interrupted =>
    cases hstep
    exact h
  | bytes n =>
    simp only [GuestPort.saferead] at hstep
    split at hstep
    · rename_i hn
      -- the message now starts with `got + n` bytes of the answer
      have hstored : p.message.take got ++ p.toGuest.take n = reply.take (got + n) := by
        rw [hans.stored, hans.toGuest, List.take_add]
      have hbound : got + n ≤ sizeofVirtmsg := by
        have hlt := hans.got_lt
        omega
      split at hstep
      · rename_i hfull
        cases hstep
        have hmessage : p.message.take got ++ p.toGuest.take n ++ p.message.drop (got + n)
            = reply := by
          rw [hstored, hfull, List.drop_eq_nil_of_le (by omega), List.append_nil,
            List.take_of_length_le (Nat.le_of_eq hans.length)]
        have hrest : p.toGuest.drop n = [] := by
          rw [hans.toGuest, List.drop_drop, List.drop_eq_nil_of_le (by rw [hans.length]; omega)]
        simp only [GuestPort.afterRead, outOfSync_full, Bool.false_eq_true, if_false]
        refine ⟨fun hidle => absurd rfl hidle, hans.toHost, ?_, ?_⟩
        · show (if discarded then [] else p.toGuest.drop n) = []
          rw [hrest, ite_self]
        · show handled = p.returned ++ [(p.request, _)]
          rw [hmessage]
          exact hans.handled
      · rename_i hmore
        cases hstep
        have hlong : (reply.take (got + n)).length = got + n := by
          rw [List.length_take, hans.length]
          omega
        refine ⟨fun _ => ⟨hlength.1, ?_⟩, reply, hans.toHost, hans.length, by omega, ?_, ?_,
          hans.handled⟩
        · rw [hstored, List.length_append, hlong, List.length_drop, hlength.2]
          omega
        · show (p.message.take got ++ p.toGuest.take n ++ p.message.drop (got + n)).take (got + n)
            = _
          rw [hstored, List.take_left' hlong]
        · show p.toGuest.drop n = _
          rw [hans.toGuest, List.drop_drop]
    · simp at hstep

/-- A step of a guest that is interrupted at most. -/
theorem PortInv.guestStep {op : GuestOp} (h : PortInv p handled)
    (hwrite : ∀ result, op = .write result → result.Progress)
    (hread : ∀ result discarded, op = .read result discarded → result.Progress)
    (hexit : op = .exit → p.pc = .writing p.request) (hstep : guestStep p op = some p') :
    PortInv p' handled := by
  simp only [Qot.guestStep] at hstep
  split at hstep
  · -- a call, on a port with nothing on the way
    rename_i message hpc
    cases hstep
    obtain ⟨htoHost, htoGuest, hhandled⟩ := h.idle hpc
    refine ⟨fun _ => ⟨message.length_eq, message.length_eq⟩, ?_, ?_, htoGuest, hhandled⟩
    · show p.toHost ++ message.bytes = message.bytes
      rw [htoHost, List.nil_append]
    · intro hnil
      have hlength := message.length_eq
      rw [hnil] at hlength
      exact absurd hlength (by decide)
  · rename_i hpc
    exact h.safewrite hpc (hwrite _ rfl) hstep
  · rename_i hpc
    split at hstep
    · rename_i hdata
      cases hstep
      refine ⟨fun _ => h.request (by simp [hpc]), ?_⟩
      rcases h.waiting hpc with hun | ⟨reply, hans⟩
      · exact absurd hun.toGuest hdata
      · exact ⟨reply, hans.toHost, hans.length, hans.got_lt, hans.stored, hans.toGuest,
          hans.handled⟩
    · simp at hstep
  · rename_i hpc
    exact h.saferead hpc (hread _ _ rfl) hstep
  · simp at hstep
  · cases hstep
    obtain ⟨hsplit, -, htoGuest, hhandled⟩ := h.writing (hexit rfl)
    refine ⟨fun hidle => absurd rfl hidle, ?_, htoGuest, hhandled⟩
    exact List.append_left_eq_self.mp hsplit
  · simp at hstep

end

/-- The daemon can read a whole message only from a guest that waits for the answer, and it is the
request of that guest. -/
theorem PortInv.unanswered {p : GuestPort} {handled : List (List UInt8 × List UInt8)}
    (h : PortInv p handled) (hwhole : sizeofVirtmsg ≤ p.toHost.length) :
    p.pc = .waiting ∧ Unanswered p handled := by
  have hsome : p.toHost ≠ [] := by
    intro hnone
    rw [hnone] at hwhole
    exact absurd hwhole (by decide)
  cases hpc : p.pc with
  | idle => exact absurd (h.idle hpc).1 hsome
  | writing left =>
    -- a byte of the request is still to be written
    obtain ⟨hsplit, hleft, -⟩ := h.writing hpc
    have hlength := (h.request (by simp [hpc])).1
    rw [← hsplit, List.length_append] at hlength
    have hpos := List.length_pos_iff.mpr hleft
    omega
  | waiting =>
    rcases h.waiting hpc with hun | ⟨reply, hans⟩
    · exact ⟨rfl, hun⟩
    · exact absurd hans.toHost hsome
  | reading got =>
    obtain ⟨reply, hans⟩ := h.reading hpc
    exact absurd hans.toHost hsome

structure ChannelInv (s : VirtChannel) : Prop where
  virtmsg : s.virtmsg.length = sizeofVirtmsg
  ports : ∀ guest, PortInv (s.ports guest) (handledOf guest s.handled)

theorem handledOf_append_self (guest : Nat) (handled : List (Nat × List UInt8 × List UInt8))
    (e : List UInt8 × List UInt8) :
    handledOf guest (handled ++ [(guest, e)]) = handledOf guest handled ++ [e] := by
  simp [handledOf]

theorem handledOf_append_other {guest g : Nat} (h : g ≠ guest)
    (handled : List (Nat × List UInt8 × List UInt8)) (e : List UInt8 × List UInt8) :
    handledOf g (handled ++ [(guest, e)]) = handledOf g handled := by
  simp [handledOf, Ne.symm h]

/-- A whole message is read, handled and answered. -/
theorem ChannelInv.hostRead {s s' : VirtChannel} {guest : Nat} {reply : RawVirtmsg}
    (h : ChannelInv s)
    (hstep : s.hostRead guest reply sizeofVirtmsg (.bytes sizeofVirtmsg) = some s') :
    ChannelInv s' := by
  simp only [VirtChannel.hostRead] at hstep
  split at hstep
  · rename_i hn
    cases hstep
    obtain ⟨hpc, hun⟩ := (h.ports guest).unanswered hn.2.2
    have hlength := ((h.ports guest).request (by simp [hpc])).1
    -- what the daemon finds in its buffer is the request
    have hmsg : (s.ports guest).toHost.take sizeofVirtmsg ++ s.virtmsg.drop sizeofVirtmsg
        = (s.ports guest).request := by
      rw [hun.toHost, List.take_of_length_le (Nat.le_of_eq hlength),
        List.drop_eq_nil_of_le (Nat.le_of_eq h.virtmsg), List.append_nil]
    refine ⟨reply.length_eq, fun g => ?_⟩
    by_cases hg : g = guest
    · subst hg
      simp only [VirtChannel.handle, Function.update_self, handledOf_append_self]
      refine ⟨fun _ => (h.ports g).request (by simp [hpc]), ?_⟩
      simp only [hpc]
      refine Or.inr ⟨reply.bytes, ?_, reply.length_eq, by decide, rfl, ?_, ?_⟩
      · show (s.ports g).toHost.drop sizeofVirtmsg = []
        rw [hun.toHost, List.drop_eq_nil_of_le (Nat.le_of_eq hlength)]
      · show (s.ports g).toGuest ++ reply.bytes.take sizeofVirtmsg = reply.bytes.drop 0
        rw [hun.toGuest, List.take_of_length_le (Nat.le_of_eq reply.length_eq), List.nil_append,
          List.drop_zero]
      · rw [hmsg, hun.handled]
    · simp only [VirtChannel.handle, Function.update_of_ne hg, handledOf_append_other hg]
      exact h.ports g
  · simp at hstep

theorem ChannelInv.step {s s' : VirtChannel} {op : ChannelOp} (h : ChannelInv s)
    (hg : ChannelSafe s op) (hstep : channelStep s op = some s') : ChannelInv s' := by
  cases op with
  | guest guest op =>
    obtain ⟨p, hp, rfl⟩ := Option.map_eq_some_iff.mp hstep
    refine ⟨h.virtmsg, fun g => ?_⟩
    by_cases hguest : g = guest
    · subst hguest
      simp only [Function.update_self]
      refine (h.ports g).guestStep ?_ ?_ ?_ hp
      · rintro result rfl
        exact hg
      · rintro result discarded rfl
        exact hg
      · rintro rfl
        exact hg
    · simp only [Function.update_of_ne hguest]
      exact h.ports g
  | hostRead guest result reply sent =>
    rcases hg with rfl | ⟨rfl, rfl⟩
    · cases hstep
      exact h
    · exact h.hostRead hstep

theorem channelInv_connected : ChannelInv VirtChannel.connected := by
  refine ⟨List.length_replicate, fun guest => ⟨fun hidle => absurd rfl hidle, rfl, rfl, rfl⟩⟩

/-- **The exchanges.** In every run of the guests and the daemon whose steps are `ChannelSafe`,
however the streams are cut into reads and writes at the guests, the messages of a guest that the
daemon handled are those of its calls that returned OK, in order and once each, with the answers the
callers found, and perhaps that of the call in progress. -/
theorem exchanges_exact (ops : List ChannelOp)
    (h : AllSteps channelStep ChannelSafe VirtChannel.connected ops) :
    AllStates channelStep ExchangesExact VirtChannel.connected ops :=
  allStates_of_inv (fun _ hs guest => (hs.ports guest).exact)
    (fun _ _ _ hs hg hstep => hs.step hg hstep) channelInv_connected h

/-- A message with one byte repeated. -/
def rawMsg (byte : UInt8) : RawVirtmsg :=
  ⟨List.replicate sizeofVirtmsg byte, List.length_replicate⟩

/-- A call whose request is written in two pieces and whose answer is read in two, with an
interruption. -/
def piecewise : List ChannelOp :=
  [.guest 0 (.call (rawMsg 1)), .guest 0 (.write (.bytes 100)), .guest 0 (.write .interrupted),
    .guest 0 (.write (.bytes 28)), .hostRead 0 (.bytes 128) (rawMsg 2) 128, .guest 0 .poll,
    .guest 0 (.read (.bytes 60) false), .guest 0 (.read .interrupted false),
    .guest 0 (.read (.bytes 68) false)]

theorem exchanges_exact_piecewise :
    AllSteps channelStep ChannelSafe VirtChannel.connected piecewise
      ∧ AllStates channelStep ExchangesExact VirtChannel.connected piecewise := by
  have hsafe : AllSteps channelStep ChannelSafe VirtChannel.connected piecewise := by
    decide +kernel
  exact ⟨hsafe, exchanges_exact piecewise hsafe⟩

/-- The same, but the first read of the answer fails, with `EIO`. -/
def failingRead : List ChannelOp :=
  [.guest 0 (.call (rawMsg 1)), .guest 0 (.write (.bytes 128)),
    .hostRead 0 (.bytes 128) (rawMsg 2) 128, .guest 0 .poll, .guest 0 (.read (.failed 5) false)]

theorem failingRead_runs : (exec channelStep VirtChannel.connected failingRead).isSome := by
  decide +kernel

/-- Where it ends. -/
def afterFailingRead : VirtChannel :=
  (exec channelStep VirtChannel.connected failingRead).get failingRead_runs

/-- `send_message` returns OK, and what the caller finds is its own request. -/
theorem failing_read_taken_for_reply :
    ¬ AllStates channelStep ExchangesExact VirtChannel.connected failingRead := by
  intro h
  have hends : ExchangesExact afterFailingRead := h.exec (Option.some_get failingRead_runs).symm
  have hidle : (afterFailingRead.ports 0).pc = .idle := by decide +kernel
  have hdiffer : handledOf 0 afterFailingRead.handled ≠ (afterFailingRead.ports 0).returned := by
    decide +kernel
  rcases hends 0 with hsame | ⟨hpc, -⟩
  · exact hdiffer hsame
  · exact hpc hidle

end Qot
