import QotStack.Lib.ContentFilter
import QotStack.Registry.Bind
import QotStack.Types.Uncertain
import Mathlib.Data.List.Lex

/-!
# QotStack — messages between the nodes of a timeline (`Messenger.cpp`)

A message goes out with `Publish`: its type is cast to the enumeration of `QoT.idl`, its times are
cut to nanoseconds. The service keeps it for the nodes whose query it meets, `on_data_available`
casts everything back and calls the node. The query is a text that `Subscribe` puts together in a
loop over the types, with the names of the enumerators as its parameters. Before that, the reader
itself leaves out what comes from a node of its own name (`readerFilter`).

Three things are lost on the way, apart from a message to a node with the name of the sender.

* `QOT_MSG_DATA` was added to `qot_types.h` only. Its number is that of `INVALID_MSG` in the other
  enumeration, which every query leaves out.
* For the same reason it has no name in `type_hashmap`: a subscription to it has an empty parameter.
* Cutting the ends of an interval makes it smaller.

`message_arrives_iff` says that nothing else is.
-/

namespace Qot

open MachineInt

/-! ## The two enumerations -/

/-- `qot_msg_type_t`. -/
inductive QotMsgType where
  | qotMsgCoordReady
  | qotMsgCoordStart
  | qotMsgCoordStop
  | qotMsgSensorVal
  | qotMsgData
  | qotMsgInvalid
  deriving DecidableEq, Repr

def QotMsgType.code : QotMsgType → Int
  | .qotMsgCoordReady => 0
  | .qotMsgCoordStart => 1
  | .qotMsgCoordStop => 2
  | .qotMsgSensorVal => 3
  | .qotMsgData => 4
  | .qotMsgInvalid => 5

/-- `MsgType` of `QoT.idl`. -/
inductive MsgType where
  | coordReady
  | coordStart
  | coordStop
  | sensorVal
  | invalidMsg
  deriving DecidableEq, Repr

def MsgType.code : MsgType → Int
  | .coordReady => 0
  | .coordStart => 1
  | .coordStop => 2
  | .sensorVal => 3
  | .invalidMsg => 4

def MsgType.label : MsgType → String
  | .coordReady => "COORD_READY"
  | .coordStart => "COORD_START"
  | .coordStop => "COORD_STOP"
  | .sensorVal => "SENSOR_VAL"
  | .invalidMsg => "INVALID_MSG"

def QotMsgType.all : List QotMsgType :=
  [.qotMsgCoordReady, .qotMsgCoordStart, .qotMsgCoordStop, .qotMsgSensorVal, .qotMsgData,
    .qotMsgInvalid]

def MsgType.all : List MsgType := [.coordReady, .coordStart, .coordStop, .sensorVal, .invalidMsg]

/-- The cast from a number. -/
def QotMsgType.ofCode (code : Int) : Option QotMsgType :=
  QotMsgType.all.find? fun t => t.code = code

def MsgType.ofCode (code : Int) : Option MsgType := MsgType.all.find? fun t => t.code = code

def MsgType.ofLabel (label : String) : Option MsgType := MsgType.all.find? fun t => t.label = label

/-- A type that `Subscribe` takes up: one below the bound of the enumeration. -/
abbrev QotMsgType.Valid (type : QotMsgType) : Prop :=
  0 ≤ type.code ∧ type.code < QotMsgType.qotMsgInvalid.code

/-- `initialize_hashmap`. -/
def initializeHashmap : List (Int × String) :=
  [(QotMsgType.qotMsgCoordReady.code, "COORD_READY"),
    (QotMsgType.qotMsgCoordStart.code, "COORD_START"),
    (QotMsgType.qotMsgCoordStop.code, "COORD_STOP"),
    (QotMsgType.qotMsgSensorVal.code, "SENSOR_VAL"),
    (QotMsgType.qotMsgInvalid.code, "INVALID_MSG")]

/-- `type_hashmap[type]`, which is the empty string for a key that is not there. -/
def typeHashmap (type : QotMsgType) : String := (initializeHashmap.lookup type.code).getD ""

/-! ## Publishing -/

structure QotMessage where
  name : CName
  type : QotMsgType
  timestamp : Utimepoint
  data : CName
  deriving DecidableEq

structure UncertainTimestamp where
  timestamp : UInt64
  uncertaintyU : UInt64
  uncertaintyL : UInt64
  deriving DecidableEq, Repr

/-- What the service carries. -/
structure TimelineMsgingType where
  uuid : List UInt8
  name : List UInt8
  type : MsgType
  utimestamp : UncertainTimestamp
  data : List UInt8
  deriving DecidableEq, Repr

/-- The address of a callback. -/
abbrev QotMsgCallback := Nat

structure Messenger where
  name : List UInt8
  uuid : List UInt8
  subExpression : String
  subParams : List String
  msgCallback : Option QotMsgCallback
  deriving DecidableEq, Repr

/-- The constructor: everything but invalid messages is asked for, and nobody to call. -/
def Messenger.new (name uuid : List UInt8) : Messenger :=
  ⟨name, uuid, "(type < %0)", ["INVALID_MSG"], none⟩

def asecPerNsec : UInt64 := 1000000000

/-- `Publish`. There is no sample if the type is none of the other enumeration. -/
def Messenger.publish (m : Messenger) (msg : QotMessage) : Option TimelineMsgingType :=
  let utimestamp : UncertainTimestamp :=
    { timestamp := msg.timestamp.estimate.sec.toUInt64 * nSecPerSec
        + msg.timestamp.estimate.asec / asecPerNsec
      uncertaintyU := msg.timestamp.interval.above.sec * nSecPerSec
        + msg.timestamp.interval.above.asec / asecPerNsec
      uncertaintyL := msg.timestamp.interval.below.sec * nSecPerSec
        + msg.timestamp.interval.below.asec / asecPerNsec }
  (MsgType.ofCode msg.type.code).map fun type =>
    { uuid := m.uuid, name := m.name, type := type, utimestamp := utimestamp,
      data := msg.data.bytes }

/-! ## Subscribing -/

/-- A `std::set<qot_msg_type_t>`, in the order in which it is iterated. -/
structure MsgTypes where
  elems : List QotMsgType
  sorted : elems.Pairwise fun s t => s.code < t.code

/-- The variables of the loop in `Subscribe`. -/
structure SubscribeLoop where
  subParams : List String
  subExpTemp : String
  paramCount : Nat
  deriving DecidableEq, Repr

/-- One iteration. `begin` is whether the iterator is that of the first type of the set. -/
def SubscribeLoop.next (begin : Bool) (st : SubscribeLoop) (type : QotMsgType) : SubscribeLoop :=
  if type.Valid then
    { subParams := st.subParams ++ [typeHashmap type]
      subExpTemp := st.subExpTemp ++ (if begin then " AND (" else " OR ") ++ "(type = %"
        ++ toString st.paramCount ++ ")"
      paramCount := st.paramCount + 1 }
  else st

def SubscribeLoop.run (st : SubscribeLoop) : List QotMsgType → SubscribeLoop
  | [] => st
  | type :: rest => rest.foldl (SubscribeLoop.next false) (st.next true type)

/-- `Subscribe`. The flag is whether it returns `QOT_RETURN_TYPE_OK`. -/
def Messenger.subscribe (m : Messenger) (msgTypes : MsgTypes) (callback : Option QotMsgCallback) :
    Bool × Messenger :=
  match callback with
  | none => (false, m)
  | some callback =>
    let st := SubscribeLoop.run ⟨[typeHashmap .qotMsgInvalid], "", 1⟩ msgTypes.elems
    (true, { m with
      msgCallback := some callback
      subExpression := "(type < %0)" ++ (st.subExpTemp ++ ")")
      subParams := st.subParams })

/-! ## Receiving -/

/-- `strcpy` into a `char[QOT_MAX_NAMELEN]`. There is no result if the string runs over it. -/
def strcpy (s : List UInt8) : Option CName :=
  if h : (s.takeWhile (· ≠ 0)).length < qotMaxNamelen then
    some ⟨s.takeWhile (· ≠ 0), h, fun h0 => by simpa using List.mem_takeWhile_imp h0⟩
  else none

/-- The body of the loop in `on_data_available`. -/
def receive (sample : TimelineMsgingType) : Option QotMessage := do
  let name ← strcpy sample.name
  let type ← QotMsgType.ofCode sample.type.code
  let data ← strcpy sample.data
  some
    { name := name
      type := type
      timestamp :=
        { estimate := tpFromNsec sample.utimestamp.timestamp.toInt64
          interval :=
            { below := tlFromNsec sample.utimestamp.uncertaintyL
              above := tlFromNsec sample.utimestamp.uncertaintyU } }
      data := data }

section Service

-- `unknown` is what the service takes a parameter for that names no enumerator: a number, or `none`
-- if it refuses the query.
variable (unknown : String → Option Int)

def paramValue (param : String) : Option Int :=
  match MsgType.ofLabel param with
  | some type => some type.code
  | none => unknown param

/-- The one field of a sample that queries are about. -/
def fieldValue (field : String) : Option (TimelineMsgingType → Int) :=
  if field = "type" then some fun sample => sample.type.code else none

/-- `dds::sub::Query`. -/
def query (expression : String) (params : List String) : Option (TimelineMsgingType → Bool) :=
  (ContentFilter.parse expression).bind
    (ContentFilter.Cond.compile fieldValue fun n => params[n]?.bind (paramValue unknown))

/-- The characters of a name, by which names are compared. -/
def nameChars (name : List UInt8) : List Nat := name.map UInt8.toNat

def nameField (field : String) : Option (TimelineMsgingType → List Nat) :=
  if field = "name" then some fun sample => nameChars sample.name else none

/-- The `ContentFilteredTopic` that `MessageReader` reads (`MsgingEntities.cpp`), so that a node
does not hear itself. -/
def readerFilter (nodeName : List UInt8) : Option (TimelineMsgingType → Bool) :=
  (ContentFilter.parse "(name <> %0)").bind
    (ContentFilter.Cond.compile nameField fun n => [nameChars nodeName][n]?)

/-- `on_data_available`: the calls it makes, of the samples that are published on the topic. A
sample comes with whether it has valid data. There is no result if the query is refused, or if a
name or the data runs over its field. -/
def Messenger.onDataAvailable (m : Messenger) (samples : List (TimelineMsgingType × Bool)) :
    Option (List (QotMsgCallback × QotMessage)) := do
  let passes ← readerFilter m.name
  let accepts ← query unknown m.subExpression m.subParams
  let taken := (samples.filter fun s => passes s.1).filter fun s => accepts s.1
  let received ← (taken.filter fun s => s.2).mapM fun s => receive s.1
  some (m.msgCallback.elim [] fun callback => received.map fun msg => (callback, msg))

end Service

/-! ## The query of a subscription -/

section Query

open ContentFilter

/-- Every query begins with this condition. -/
def belowInvalid : Cond := .cmp "type" .lt 0

def afterBound : Reader := ⟨[], ⟨[], .start, .operator belowInvalid⟩⟩

theorem read_bound : read "(type < %0)".toList .start = some afterBound := rfl

/-- The comparison that an iteration adds. -/
theorem read_comparison (n : Nat) (outer : List Frame) (frame : Frame) :
    read ("(type = %" ++ (toString n ++ ")")).toList ⟨[], ⟨outer, frame, .operand⟩⟩
      = some ⟨[], ⟨outer, frame, .operator (.cmp "type" .eq n)⟩⟩ := by
  have hhead : read "(type = %".toList ⟨[], ⟨outer, frame, .operand⟩⟩
      = some ⟨['%'], ⟨frame :: outer, .start, .param "type" .eq⟩⟩ := rfl
  rw [String.toList_append, String.toList_append, read_append, hhead, Option.bind_some]
  exact read_param n "type" .eq frame .start outer

namespace SubscribeLoop

/-- **The invariant of the loop**, after the types `done`: the text is a list of alternatives that
is still open, one for each type, and they compare with the parameters of these types. -/
structure Reads (st : SubscribeLoop) (done : List QotMsgType) : Prop where
  params : st.subParams = typeHashmap .qotMsgInvalid :: done.map typeHashmap
  count : st.paramCount = done.length + 1
  text : ∃ n frame c, done.length = n + 1
    ∧ read st.subExpTemp.toList afterBound
      = some ⟨[], ⟨[⟨none, some belowInvalid⟩], frame, .operator c⟩⟩
    ∧ frame.close c = oneOf "type" n

variable {type : QotMsgType} {st : SubscribeLoop} {done : List QotMsgType}

/-- The first type opens the list. -/
theorem reads_first (h : type.Valid) :
    (next true ⟨[typeHashmap .qotMsgInvalid], "", 1⟩ type).Reads [type] := by
  rw [next, if_pos h]
  refine ⟨rfl, rfl, 0, .start, .cmp "type" .eq 1, rfl, ?_, rfl⟩
  have hopen : read " AND (".toList afterBound
      = some ⟨[], ⟨[⟨none, some belowInvalid⟩], .start, .operand⟩⟩ := rfl
  show read ("" ++ " AND (" ++ "(type = %" ++ toString 1 ++ ")").toList _ = _
  rw [String.empty_append, String.append_assoc, String.append_assoc,
    String.toList_append, read_append, hopen, Option.bind_some]
  exact read_comparison 1 _ _

/-- Each further type adds an alternative. -/
theorem Reads.next (hst : st.Reads done) (h : type.Valid) :
    (st.next false type).Reads (done ++ [type]) := by
  obtain ⟨n, frame, c, hlen, hread, hclose⟩ := hst.text
  rw [SubscribeLoop.next, if_pos h]
  refine ⟨?_, ?_, n + 1, ⟨some (frame.close c), none⟩, .cmp "type" .eq (n + 2), ?_, ?_, ?_⟩
  · show st.subParams ++ [typeHashmap type] = _
    rw [hst.params, List.map_append]
    rfl
  · show st.paramCount + 1 = _
    rw [hst.count, List.length_append]
    rfl
  · rw [List.length_append, hlen]
    rfl
  · -- the alternatives so far are closed by the operator, the new one is still open
    have hor : read " OR ".toList ⟨[], ⟨[⟨none, some belowInvalid⟩], frame, .operator c⟩⟩
        = some ⟨[], ⟨[⟨none, some belowInvalid⟩], ⟨some (frame.close c), none⟩, .operand⟩⟩ := rfl
    show read (st.subExpTemp ++ " OR " ++ "(type = %" ++ toString st.paramCount ++ ")").toList _ = _
    rw [String.append_assoc, String.append_assoc,
      String.append_assoc, String.toList_append, read_append, hread, Option.bind_some,
      String.toList_append, read_append, hor, Option.bind_some, hst.count, hlen]
    exact read_comparison (n + 2) _ _
  · show Cond.or (frame.close c) _ = _
    rw [hclose]
    rfl

/-- The whole loop. -/
theorem Reads.foldl (hst : st.Reads done) {rest : List QotMsgType} (h : ∀ type ∈ rest, type.Valid) :
    (rest.foldl (SubscribeLoop.next false) st).Reads (done ++ rest) := by
  induction rest generalizing st done with
  | nil =>
    rw [List.append_nil]
    exact hst
  | cons type rest ih =>
    have hnext := hst.next (h type List.mem_cons_self)
    have hrest := ih hnext fun t ht => h t (List.mem_cons_of_mem type ht)
    rw [List.append_assoc] at hrest
    exact hrest

theorem reads_run {types : List QotMsgType} (hne : types ≠ []) (h : ∀ type ∈ types, type.Valid) :
    (run ⟨[typeHashmap .qotMsgInvalid], "", 1⟩ types).Reads types := by
  cases types with
  | nil => exact absurd rfl hne
  | cons type rest =>
    exact (reads_first (h type List.mem_cons_self)).foldl fun t ht =>
      h t (List.mem_cons_of_mem type ht)

/-- The text of the query is read as it is meant. -/
theorem Reads.parse (hst : st.Reads done) :
    ∃ n, done.length = n + 1
      ∧ ContentFilter.parse ("(type < %0)" ++ (st.subExpTemp ++ ")"))
        = some (.and belowInvalid (oneOf "type" n)) := by
  obtain ⟨n, frame, c, hlen, hread, hclose⟩ := hst.text
  refine ⟨n, hlen, ?_⟩
  have hend : read ")".toList ⟨[], ⟨[⟨none, some belowInvalid⟩], frame, .operator c⟩⟩
      = some ⟨[], ⟨[], ⟨none, some belowInvalid⟩, .operator (frame.close c)⟩⟩ := rfl
  unfold ContentFilter.parse
  rw [String.toList_append, read_append, read_bound, Option.bind_some, String.toList_append,
    read_append, hread, Option.bind_some, hend, hclose]
  rfl

end SubscribeLoop

variable (unknown : String → Option Int)

/-- The name of a type is read as its number in the other enumeration, except that one has none. -/
theorem paramValue_typeHashmap (h : type.Valid) :
    paramValue unknown (typeHashmap type)
      = if type = .qotMsgData then unknown "" else some type.code := by
  cases type with
  | qotMsgInvalid => exact absurd h (by decide)
  | _ => rfl

/-- The parameters of a subscription as the query finds them. -/
def subscribedParam (types : List QotMsgType) (i : Nat) : Option Int :=
  (typeHashmap .qotMsgInvalid :: types.map typeHashmap)[i]?.bind (paramValue unknown)

theorem subscribedParam_succ (types : List QotMsgType) (i : Nat) :
    subscribedParam unknown types (i + 1)
      = types[i]?.bind fun type => paramValue unknown (typeHashmap type) := by
  unfold subscribedParam
  rw [List.getElem?_cons_succ, List.getElem?_map, Option.bind_map]
  rfl

variable {m node : Messenger} {msgTypes : MsgTypes} {callback : QotMsgCallback}

section
variable (hnode : m.subscribe msgTypes (some callback) = (true, node))
include hnode

/-- A subscription asks for the types below `INVALID_MSG` that are among its own. -/
theorem query_subscribe (hne : msgTypes.elems ≠ []) (hvalid : ∀ type ∈ msgTypes.elems, type.Valid) :
    ∃ n, msgTypes.elems.length = n + 1
      ∧ query unknown node.subExpression node.subParams
        = ((oneOf "type" n).compile fieldValue (subscribedParam unknown msgTypes.elems)).map
            fun q sample => decide (sample.type.code < MsgType.invalidMsg.code) && q sample := by
  have hreads := SubscribeLoop.reads_run hne hvalid
  obtain ⟨n, hlen, hparse⟩ := hreads.parse
  refine ⟨n, hlen, ?_⟩
  obtain rfl := (Prod.mk.inj hnode).2
  unfold query
  rw [hreads.params, hparse]
  rfl

/-- It is refused only if it has the type without a name, and the service does not take that. -/
theorem query_subscribe_isSome_iff
    (hne : msgTypes.elems ≠ []) (hvalid : ∀ type ∈ msgTypes.elems, type.Valid) :
    (query unknown node.subExpression node.subParams).isSome
      ↔ (QotMsgType.qotMsgData ∈ msgTypes.elems → (unknown "").isSome) := by
  obtain ⟨n, hlen, hquery⟩ := query_subscribe unknown hnode hne hvalid
  have hfield : fieldValue "type" = some fun sample => sample.type.code := rfl
  rw [hquery, Option.isSome_map, oneOf_compiles_iff hfield]
  constructor
  · intro h hdata
    obtain ⟨i, hi, heq⟩ := List.mem_iff_getElem.mp hdata
    have hsome := h i (by omega)
    rw [subscribedParam_succ, List.getElem?_eq_getElem hi, heq, Option.bind_some,
      paramValue_typeHashmap unknown (by decide), if_pos rfl] at hsome
    exact hsome
  · intro h i hi
    have hi' : i < msgTypes.elems.length := by omega
    have hmem := List.getElem_mem hi'
    rw [subscribedParam_succ, List.getElem?_eq_getElem hi', Option.bind_some,
      paramValue_typeHashmap unknown (hvalid _ hmem)]
    split
    · next heq => exact h (heq ▸ hmem)
    · rfl

theorem query_subscribe_apply
    (hne : msgTypes.elems ≠ []) (hvalid : ∀ type ∈ msgTypes.elems, type.Valid)
    {accepts : TimelineMsgingType → Bool}
    (h : query unknown node.subExpression node.subParams = some accepts)
    (sample : TimelineMsgingType) :
    accepts sample = true ↔ sample.type.code < MsgType.invalidMsg.code
      ∧ ∃ type ∈ msgTypes.elems,
        paramValue unknown (typeHashmap type) = some sample.type.code := by
  obtain ⟨n, hlen, hquery⟩ := query_subscribe unknown hnode hne hvalid
  have hfield : fieldValue "type" = some fun sample => sample.type.code := rfl
  rw [hquery, Option.map_eq_some_iff] at h
  obtain ⟨q, hq, rfl⟩ := h
  rw [Bool.and_eq_true, decide_eq_true_iff, oneOf_apply hfield hq]
  apply and_congr_right
  intro _
  constructor
  · rintro ⟨i, hi, heq⟩
    have hi' : i < msgTypes.elems.length := by omega
    rw [subscribedParam_succ, List.getElem?_eq_getElem hi', Option.bind_some] at heq
    exact ⟨_, List.getElem_mem hi', heq⟩
  · rintro ⟨type, hmem, heq⟩
    obtain ⟨i, hi, rfl⟩ := List.mem_iff_getElem.mp hmem
    refine ⟨i, by omega, ?_⟩
    rw [subscribedParam_succ, List.getElem?_eq_getElem hi, Option.bind_some]
    exact heq

end

end Query

/-! ## What is received -/

theorem strcpy_bytes (s : CName) : strcpy s.bytes = some s := by
  have hall : s.bytes.takeWhile (· ≠ 0) = s.bytes := by
    rw [List.takeWhile_eq_self_iff]
    intro b hb
    rw [decide_eq_true_iff]
    exact ne_of_mem_of_not_mem hb s.terminated
  unfold strcpy
  simp only [hall, s.fits, dite_true]

/-- **The messages that are to arrive**: the type is valid, the name of the sender fits its field,
and the times are normalised and fit into the words of the sample. -/
structure Sendable (m : Messenger) (msg : QotMessage) : Prop where
  type : msg.type.Valid
  name : (m.name.takeWhile (· ≠ 0)).length < qotMaxNamelen
  normalised : msg.timestamp.Normalised
  estimate : Fits64 (msg.timestamp.estimate.value / 1000000000)
  below : msg.timestamp.interval.below.value / 1000000000 < 18446744073709551616
  above : msg.timestamp.interval.above.value / 1000000000 < 18446744073709551616

/-- The casts there and back. -/
theorem QotMsgType.Valid.casts {type : QotMsgType} (h : type.Valid) :
    ∃ wire, MsgType.ofCode type.code = some wire ∧ wire.code = type.code
      ∧ QotMsgType.ofCode wire.code = some type := by
  cases type with
  | qotMsgCoordReady => exact ⟨.coordReady, rfl, rfl, rfl⟩
  | qotMsgCoordStart => exact ⟨.coordStart, rfl, rfl, rfl⟩
  | qotMsgCoordStop => exact ⟨.coordStop, rfl, rfl, rfl⟩
  | qotMsgSensorVal => exact ⟨.sensorVal, rfl, rfl, rfl⟩
  | qotMsgData => exact ⟨.invalidMsg, rfl, rfl, rfl⟩
  | qotMsgInvalid => exact absurd h (by decide)

/-- The times of a message after they have gone through nanoseconds. -/
def Utimepoint.throughNsec (t : Utimepoint) : Utimepoint :=
  ⟨tpFromNsec (tpToNsec t.estimate),
    ⟨tlFromNsec (tlToNsec t.interval.below), tlFromNsec (tlToNsec t.interval.above)⟩⟩

variable {m : Messenger} {msg : QotMessage}

/-- The message that comes out. -/
theorem receive_publish (h : Sendable m msg) :
    ∃ sample name, m.publish msg = some sample ∧ sample.name = m.name
      ∧ sample.type.code = msg.type.code
      ∧ receive sample = some ⟨name, msg.type, msg.timestamp.throughNsec, msg.data⟩ := by
  obtain ⟨wire, hof, hcode, hback⟩ := h.type.casts
  obtain ⟨name, hname⟩ : ∃ name, strcpy m.name = some name := ⟨_, dif_pos h.name⟩
  refine ⟨_, name, Option.map_eq_some_iff.mpr ⟨wire, hof, rfl⟩, rfl, hcode, ?_⟩
  unfold receive
  rw [hname, hback, strcpy_bytes]
  rfl

/-! ### Times through nanoseconds -/

/-- Less than a nanosecond is lost, towards the past. -/
theorem tpFromNsec_tpToNsec_value {t : Timepoint} (h : Fits64 (t.value / 1000000000)) :
    (tpFromNsec (tpToNsec t)).value = t.value / 1000000000 * 1000000000 := by
  have hfloor : t.sec.toInt * 1000000000 + t.asec.toNat / 1000000000 = t.value / 1000000000 := by
    unfold Timepoint.value
    omega
  rw [tpFromNsec_value, toInt_tpToNsec, hfloor, wrap64_of_fits h]

theorem tlFromNsec_tlToNsec_value {l : Timelength}
    (h : l.value / 1000000000 < 18446744073709551616) :
    (tlFromNsec (tlToNsec l)).value = l.value / 1000000000 * 1000000000 := by
  have hn : nSecPerSec.toNat = 1000000000 := rfl
  have hfloor : ((l.sec.toNat * 1000000000 + l.asec.toNat / 1000000000 : Nat) : Int)
      = l.value / 1000000000 := by
    unfold Timelength.value
    omega
  have hnat : (tlToNsec l).toNat = l.sec.toNat * 1000000000 + l.asec.toNat / 1000000000 := by
    unfold tlToNsec
    rw [UInt64.toNat_add, UInt64.toNat_mul, UInt64.toNat_div, hn]
    omega
  rw [(tlFromNsec_value _).1, hnat, hfloor]

/-- A whole number of nanoseconds. -/
abbrev WholeNsec (value : Int) : Prop := value % 1000000000 = 0

/-- Every point of the interval of `u` is in that of `t`. -/
def Utimepoint.Encloses (t u : Utimepoint) : Prop := ∀ x, u.Contains x → t.Contains x

theorem Utimepoint.encloses_iff (t u : Utimepoint) :
    t.Encloses u ↔ t.estimate.value - t.interval.below.value
        ≤ u.estimate.value - u.interval.below.value
      ∧ u.estimate.value + u.interval.above.value ≤ t.estimate.value + t.interval.above.value := by
  have hbelow : (0 : ℝ) ≤ u.interval.below.value := by exact_mod_cast u.interval.below.value_nonneg
  have habove : (0 : ℝ) ≤ u.interval.above.value := by exact_mod_cast u.interval.above.value_nonneg
  constructor
  · intro h
    have hlow := (h (u.estimate.value - u.interval.below.value) ⟨le_refl _, by linarith⟩).1
    have hhigh := (h (u.estimate.value + u.interval.above.value) ⟨by linarith, le_refl _⟩).2
    exact ⟨by exact_mod_cast hlow, by exact_mod_cast hhigh⟩
  · rintro ⟨hlow, hhigh⟩ x ⟨hx, hx'⟩
    have hlow' : (t.estimate.value - t.interval.below.value : ℝ)
        ≤ u.estimate.value - u.interval.below.value := by exact_mod_cast hlow
    have hhigh' : (u.estimate.value + u.interval.above.value : ℝ)
        ≤ t.estimate.value + t.interval.above.value := by exact_mod_cast hhigh
    exact ⟨hlow'.trans hx, hx'.trans hhigh'⟩

/-- Cut to nanoseconds, the interval encloses what it was only if there was nothing to cut. -/
theorem Utimepoint.throughNsec_encloses_iff (h : Sendable m msg) :
    msg.timestamp.throughNsec.Encloses msg.timestamp
      ↔ WholeNsec msg.timestamp.estimate.value ∧ WholeNsec msg.timestamp.interval.below.value
        ∧ WholeNsec msg.timestamp.interval.above.value := by
  rw [Utimepoint.encloses_iff]
  unfold Utimepoint.throughNsec
  rw [tpFromNsec_tpToNsec_value h.estimate, tlFromNsec_tlToNsec_value h.below,
    tlFromNsec_tlToNsec_value h.above]
  omega

theorem throughNsec_estimate (h : Sendable m msg)
    (hwhole : WholeNsec msg.timestamp.estimate.value) :
    msg.timestamp.throughNsec.estimate = msg.timestamp.estimate := by
  apply Timepoint.value_inj (tpFromNsec_normalised _) h.normalised.estimate
  show (tpFromNsec (tpToNsec msg.timestamp.estimate)).value = _
  rw [tpFromNsec_tpToNsec_value h.estimate]
  omega

/-! ## Which messages arrive -/

/-- **The message is unchanged**: it has the type and the data of the one that was sent, its
estimate if that is a whole number of nanoseconds, and an interval around the one that was sent. -/
structure Unchanged (received msg : QotMessage) : Prop where
  type : received.type = msg.type
  data : received.data = msg.data
  estimate : WholeNsec msg.timestamp.estimate.value →
    received.timestamp.estimate = msg.timestamp.estimate
  interval : received.timestamp.Encloses msg.timestamp

/-- The node is called once, with the message. -/
def Arrives (calls : Option (List (QotMsgCallback × QotMessage))) (callback : QotMsgCallback)
    (msg : QotMessage) : Prop :=
  ∃ received, calls = some [(callback, received)] ∧ Unchanged received msg

theorem unchanged_iff (h : Sendable m msg) (name : CName) :
    Unchanged ⟨name, msg.type, msg.timestamp.throughNsec, msg.data⟩ msg
      ↔ WholeNsec msg.timestamp.estimate.value ∧ WholeNsec msg.timestamp.interval.below.value
        ∧ WholeNsec msg.timestamp.interval.above.value := by
  rw [← Utimepoint.throughNsec_encloses_iff h]
  exact ⟨fun hsame => hsame.interval,
    fun hencloses => ⟨rfl, rfl, throughNsec_estimate h, hencloses⟩⟩

/-- A sample that may be passed over. -/
theorem arrives_iff {accepted : Bool} {callback : QotMsgCallback} {received : QotMessage} :
    Arrives (some (if accepted then [(callback, received)] else [])) callback msg
      ↔ accepted = true ∧ Unchanged received msg := by
  cases accepted with
  | true =>
    constructor
    · rintro ⟨received', hcalls, hsame⟩
      obtain rfl := (Prod.mk.inj (List.cons.inj (Option.some.inj hcalls)).1).2
      exact ⟨rfl, hsame⟩
    · intro h
      exact ⟨received, rfl, h.2⟩
  | false =>
    constructor
    · rintro ⟨received', hcalls, -⟩
      exact nomatch hcalls
    · intro h
      exact nomatch h.1

section Arrival

variable (unknown : String → Option Int)

/-- The filter of the reader leaves out the node's own messages. -/
theorem readerFilter_eq (nodeName : List UInt8) :
    readerFilter nodeName = some fun sample => decide (sample.name ≠ nodeName) := by
  have hinj : ∀ a b, nameChars a = nameChars b ↔ a = b := fun a b =>
    (List.map_injective_iff.mpr fun _ _ => UInt8.toNat_inj.mp).eq_iff
  have hread : readerFilter nodeName = some fun sample =>
      ContentFilter.RelOp.ne.holds (nameChars sample.name) (nameChars nodeName) := rfl
  rw [hread]
  congr 1
  funext sample
  exact decide_eq_decide.mpr (not_congr (hinj _ _))

/-- The samples that come together are received one by one. -/
theorem Messenger.onDataAvailable_append (m : Messenger)
    (before after : List (TimelineMsgingType × Bool)) :
    m.onDataAvailable unknown (before ++ after)
      = (m.onDataAvailable unknown before).bind fun calls =>
          (m.onDataAvailable unknown after).map fun calls' => calls ++ calls' := by
  unfold Messenger.onDataAvailable
  rw [readerFilter_eq]
  cases query unknown m.subExpression m.subParams with
  | none => rfl
  | some accepts =>
    simp only [Option.bind_eq_bind, Option.bind_some, List.filter_append, List.mapM_append]
    cases List.mapM (fun s => receive s.1) (((before.filter fun s =>
        decide (s.1.name ≠ m.name)).filter fun s => accepts s.1).filter fun s => s.2) with
    | none => rfl
    | some received =>
      cases List.mapM (fun s => receive s.1) (((after.filter fun s =>
          decide (s.1.name ≠ m.name)).filter fun s => accepts s.1).filter fun s => s.2) with
      | none => rfl
      | some received' => cases m.msgCallback <;> simp

/-- A valid sample on its own. -/
theorem Messenger.onDataAvailable_single {m : Messenger} {callback : QotMsgCallback}
    (hcallback : m.msgCallback = some callback) {sample : TimelineMsgingType} {msg : QotMessage}
    (hreceive : receive sample = some msg) :
    m.onDataAvailable unknown [(sample, true)]
      = (query unknown m.subExpression m.subParams).map fun accepts =>
          if decide (sample.name ≠ m.name) && accepts sample then [(callback, msg)] else [] := by
  unfold Messenger.onDataAvailable
  rw [hcallback, readerFilter_eq]
  cases query unknown m.subExpression m.subParams with
  | none => rfl
  | some accepts =>
    by_cases hname : sample.name = m.name
    · simp [hname]
    · cases h : accepts sample <;> simp [h, hname, hreceive]

/-- Whether the node is called at all, for a message of one of its types. -/
theorem accepts_published {m node : Messenger} {msgTypes : MsgTypes} {callback : QotMsgCallback}
    (hnode : m.subscribe msgTypes (some callback) = (true, node))
    (hvalid : ∀ type ∈ msgTypes.elems, type.Valid) {type : QotMsgType}
    (hmem : type ∈ msgTypes.elems) {accepts : TimelineMsgingType → Bool}
    (h : query unknown node.subExpression node.subParams = some accepts)
    {sample : TimelineMsgingType} (hcode : sample.type.code = type.code) :
    accepts sample = true ↔ type ≠ .qotMsgData := by
  rw [query_subscribe_apply unknown hnode (List.ne_nil_of_mem hmem) hvalid h, hcode]
  constructor
  · rintro ⟨hlt, _⟩ rfl
    exact absurd hlt (by decide)
  · intro hne
    refine ⟨?_, type, hmem, ?_⟩
    · have htype := hvalid type hmem
      revert htype hne
      cases type <;> decide
    · rw [paramValue_typeHashmap unknown (hvalid type hmem), if_neg hne]

/-- **A message arrives unchanged** at a node that has subscribed to its type exactly if the node
has another name than the sender, the type is not the one that the other enumeration lacks, the
service takes the query, which is in question only if that type is subscribed to as well, and all
three times are whole numbers of nanoseconds. What else comes with the message makes no
difference. -/
theorem message_arrives_iff (sender subscriber node : Messenger) (msg : QotMessage)
    (hsend : Sendable sender msg) (msgTypes : MsgTypes) (callback : QotMsgCallback)
    (hnode : subscriber.subscribe msgTypes (some callback) = (true, node))
    (hvalid : ∀ type ∈ msgTypes.elems, type.Valid) (hmem : msg.type ∈ msgTypes.elems) :
    ∃ sample, sender.publish msg = some sample
      ∧ (Arrives (node.onDataAvailable unknown [(sample, true)]) callback msg
        ↔ sender.name ≠ subscriber.name ∧ msg.type ≠ .qotMsgData
          ∧ (QotMsgType.qotMsgData ∈ msgTypes.elems → (unknown "").isSome)
          ∧ WholeNsec msg.timestamp.estimate.value ∧ WholeNsec msg.timestamp.interval.below.value
          ∧ WholeNsec msg.timestamp.interval.above.value)
      ∧ ∀ before after calls calls', node.onDataAvailable unknown before = some calls
        → node.onDataAvailable unknown after = some calls'
        → node.onDataAvailable unknown (before ++ ([(sample, true)] ++ after))
          = (node.onDataAvailable unknown [(sample, true)]).map fun call =>
            calls ++ (call ++ calls') := by
  obtain ⟨sample, name, hpublish, hsender, hcode, hreceive⟩ := receive_publish hsend
  obtain ⟨hcallback, hname⟩ : node.msgCallback = some callback ∧ node.name = subscriber.name := by
    obtain rfl := (Prod.mk.inj hnode).2
    exact ⟨rfl, rfl⟩
  refine ⟨sample, hpublish, ?_, ?_⟩
  · rw [Messenger.onDataAvailable_single unknown hcallback hreceive,
      ← query_subscribe_isSome_iff unknown hnode (List.ne_nil_of_mem hmem) hvalid,
      ← unchanged_iff hsend name]
    cases hquery : query unknown node.subExpression node.subParams with
    | none =>
      constructor
      · rintro ⟨received, hcalls, -⟩
        exact nomatch hcalls
      · rintro ⟨-, -, hsome, -⟩
        exact nomatch hsome
    | some accepts =>
      rw [Option.map_some, arrives_iff, Bool.and_eq_true, decide_eq_true_iff, hsender, hname,
        accepts_published unknown hnode hvalid hmem hquery hcode, Option.isSome_some,
        eq_self_iff_true, true_and, and_assoc]
  · -- the samples before and after it are received on their own
    intro before after calls calls' hbefore hafter
    rw [Messenger.onDataAvailable_append, Messenger.onDataAvailable_append, hbefore, hafter,
      Option.bind_some]
    cases node.onDataAvailable unknown [(sample, true)] <;> rfl

end Arrival

def senderA : Messenger := Messenger.new [97] [116]

/-- A node that has subscribed to sensor values and starts. -/
def sensorNode : Messenger :=
  ((Messenger.new [98] [116]).subscribe
    ⟨[.qotMsgCoordStart, .qotMsgSensorVal], by decide⟩ (some 7)).2

/-- A node that has subscribed to data. -/
def dataNode : Messenger :=
  ((Messenger.new [98] [116]).subscribe ⟨[.qotMsgData], by decide⟩ (some 7)).2

/-- A message of ten seconds, exact below and with `above` attoseconds above. -/
def tenSecondsMessage (type : QotMsgType) (above : UInt64) : QotMessage :=
  ⟨nameA, type, ⟨⟨10, 0⟩, ⟨⟨0, 0⟩, ⟨0, above⟩⟩⟩, nameA⟩

theorem sendable_tenSeconds {type : QotMsgType} (htype : type.Valid) {above : UInt64}
    (habove : above.toNat < 1000000000000000000) :
    Sendable senderA (tenSecondsMessage type above) := by
  have hvalue : (⟨0, above⟩ : Timelength).value = above.toNat := by
    simp [Timelength.value]
  have hfits : (⟨0, above⟩ : Timelength).value / 1000000000 < 18446744073709551616 := by
    rw [hvalue]
    omega
  have hestimate : (⟨10, 0⟩ : Timepoint).Normalised
      ∧ Fits64 ((⟨10, 0⟩ : Timepoint).value / 1000000000) := by
    decide
  have hbelow : (⟨0, 0⟩ : Timelength).Normalised
      ∧ (⟨0, 0⟩ : Timelength).value / 1000000000 < 18446744073709551616 := by
    decide
  exact ⟨htype, by decide, ⟨hestimate.1, hbelow.1, habove⟩, hestimate.2, hbelow.2, hfits⟩

/-- A sensor value with whole nanoseconds arrives. -/
theorem message_arrives_iff_sensor :
    ∃ sample, senderA.publish (tenSecondsMessage .qotMsgSensorVal 5000000000) = some sample
      ∧ Arrives (sensorNode.onDataAvailable (fun _ => none) [(sample, true)]) 7
        (tenSecondsMessage .qotMsgSensorVal 5000000000) := by
  obtain ⟨sample, hpublish, hiff, _⟩ := message_arrives_iff (fun _ => none) senderA
    (Messenger.new [98] [116]) sensorNode (tenSecondsMessage .qotMsgSensorVal 5000000000)
    (sendable_tenSeconds (by decide) (by decide))
    ⟨[.qotMsgCoordStart, .qotMsgSensorVal], by decide⟩ 7
    rfl (by decide) (by decide)
  exact ⟨sample, hpublish, hiff.mpr (by decide)⟩

/-- Data is not passed on to a node that has subscribed to it, even if the service takes the query;
an uncertainty of one attosecond arrives as none; and a node does not hear another one of its own
name. -/
theorem message_lost :
    Sendable senderA (tenSecondsMessage .qotMsgData 0)
      ∧ senderA.publish (tenSecondsMessage .qotMsgData 0)
        = some ⟨[116], [97], .invalidMsg, ⟨10000000000, 0, 0⟩, [97]⟩
      ∧ dataNode.onDataAvailable (fun _ => some 4)
        [(⟨[116], [97], .invalidMsg, ⟨10000000000, 0, 0⟩, [97]⟩, true)] = some []
      ∧ Sendable senderA (tenSecondsMessage .qotMsgSensorVal 1)
      ∧ senderA.publish (tenSecondsMessage .qotMsgSensorVal 1)
        = some ⟨[116], [97], .sensorVal, ⟨10000000000, 0, 0⟩, [97]⟩
      ∧ sensorNode.onDataAvailable (fun _ => none)
        [(⟨[116], [97], .sensorVal, ⟨10000000000, 0, 0⟩, [97]⟩, true)]
        = some [(7, tenSecondsMessage .qotMsgSensorVal 0)]
      ∧ ¬ (tenSecondsMessage .qotMsgSensorVal 0).timestamp.Encloses
          (tenSecondsMessage .qotMsgSensorVal 1).timestamp
      ∧ { sensorNode with name := [97] }.onDataAvailable (fun _ => none)
        [(⟨[116], [97], .sensorVal, ⟨10000000000, 0, 0⟩, [97]⟩, true)] = some [] := by
  refine ⟨sendable_tenSeconds (by decide) (by decide), by decide, by decide,
    sendable_tenSeconds (by decide) (by decide), by decide, by decide, ?_, by decide⟩
  rw [Utimepoint.encloses_iff]
  decide

end Qot
