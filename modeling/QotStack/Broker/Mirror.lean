import QotStack.Lib.Runs
import QotStack.Lib.SlotTable

/-!
# QotStack — the endpoints of a broker, mirrored to ZooKeeper

A broker keeps a table of the topics of its node, with their publishers and subscribers, and makes a
ZooKeeper node for each of these below `/timelines/<timeline>/<topic>` (`Broker.cpp`, `zk_logic.c`).
The timeline is a property of the endpoint, but the table has one for each topic: that of the first
endpoint. A node is made under the timeline of its endpoint and deleted under that of the topic, and
the topic has a node only under the latter.

`endpoints_mirrored` says that the nodes are those of the recorded endpoints, in every run whose
steps are `MirrorSafe`: an endpoint comes with the timeline its topic has, unless the topic has none
yet.

ZooKeeper is the set of its nodes, and only this broker makes or deletes nodes of endpoints. A
create succeeds when the parent is there, and a delete when there are no children. A name is one
component of a path. The callbacks of the broker's threads are one step each.
-/

namespace Qot

open Runs SlotTable

/-! ## ZooKeeper -/

inductive EndpointKind where
  | publisher
  | subscriber
  deriving DecidableEq, Repr

/-- The nodes below `/timelines`: of a timeline, of a topic, `publishers` or `subscribers` below it,
and of an endpoint. -/
inductive Znode where
  | timeline (timeline : String)
  | topic (timeline topic : String)
  | endpoints (timeline topic : String) (kind : EndpointKind)
  | endpoint (timeline topic : String) (kind : EndpointKind) (id : Int32)
  deriving DecidableEq, Repr

def Znode.parent : Znode → Option Znode
  | .timeline _ => none
  | .topic tl _ => some (.timeline tl)
  | .endpoints tl name _ => some (.topic tl name)
  | .endpoint tl name kind _ => some (.endpoints tl name kind)

/-- The parent of a node is there; `/timelines` always is. -/
def HasParent (zk : List Znode) (n : Znode) : Prop := ∀ p ∈ n.parent, p ∈ zk

instance (zk : List Znode) (n : Znode) : Decidable (HasParent zk n) := Option.decidableForallMem _

/-- `zoo_create`: fails with `ZNONODE` without the parent, and with `ZNODEEXISTS` if the node is
there. -/
def zooCreate (zk : List Znode) (n : Znode) : List Znode :=
  if HasParent zk n ∧ n ∉ zk then n :: zk else zk

/-- A create repeated as long as the result is `ZNONODE`: without the parent it does not end. -/
def zooCreateRepeat (zk : List Znode) (n : Znode) : Option (List Znode) :=
  if HasParent zk n then some (zooCreate zk n) else none

/-- `zoo_delete`: fails with `ZNOTEMPTY` if there are children. -/
def zooDelete (zk : List Znode) (n : Znode) : List Znode :=
  if zk.any fun m => m.parent = some n then zk else zk.filter fun m => m ≠ n

def zkTimelineCreate (zk : List Znode) (timeline : String) : List Znode :=
  zooCreate zk (.timeline timeline)

def zkTimelineDelete (zk : List Znode) (timeline : String) : List Znode :=
  zooDelete zk (.timeline timeline)

def zkTopicCreate (zk : List Znode) (timeline topic : String) : Option (List Znode) := do
  let zk ← zooCreateRepeat zk (.topic timeline topic)
  let zk ← zooCreateRepeat zk (.endpoints timeline topic .publisher)
  zooCreateRepeat zk (.endpoints timeline topic .subscriber)

def zkTopicDelete (zk : List Znode) (timeline topic : String) : List Znode :=
  let zk := zooDelete zk (.endpoints timeline topic .publisher)
  let zk := zooDelete zk (.endpoints timeline topic .subscriber)
  zooDelete zk (.topic timeline topic)

/-- `zk_publisher_create` and `zk_subscriber_create`. -/
def zkEndpointCreate (zk : List Znode) (timeline topic : String) (kind : EndpointKind)
    (id : Int32) :
    List Znode :=
  zooCreate zk (.endpoint timeline topic kind id)

/-- `zk_publisher_delete` and `zk_subscriber_delete`. -/
def zkEndpointDelete (zk : List Znode) (timeline topic : String) (kind : EndpointKind)
    (id : Int32) :
    List Znode :=
  zooDelete zk (.endpoint timeline topic kind id)

/-! ## The table of topics -/

/-- An entry of `publishers` or `subscribers`. `given` is the timeline the endpoint was added with,
which the code does not keep. -/
structure Endpoint where
  id : Int32
  participant : Int32
  given : String
  deriving DecidableEq, Repr

structure TopicInfo where
  topicId : Int32
  topicName : String
  timelineUuid : String
  publishers : List Endpoint
  subscribers : List Endpoint
  deriving DecidableEq, Repr

/-- The timeline of a topic without an endpoint so far. -/
def defaultTlname : String := "default_tlname"

namespace TopicInfo

def new (topicId : Int32) (topicName : String) : TopicInfo :=
  ⟨topicId, topicName, defaultTlname, [], []⟩

def endpoints (t : TopicInfo) : EndpointKind → List Endpoint
  | .publisher => t.publishers
  | .subscriber => t.subscribers

def setEndpoints (t : TopicInfo) (kind : EndpointKind) (l : List Endpoint) : TopicInfo :=
  match kind with
  | .publisher => { t with publishers := l }
  | .subscriber => { t with subscribers := l }

/-- Add an endpoint: the result, the topic and ZooKeeper afterwards. -/
def addEndpoint (kind : EndpointKind) (t : TopicInfo) (zk : List Znode)
    (participant id : Int32) (timelineUuid : String) : Option (Int × TopicInfo × List Znode) :=
  if id ∈ (t.endpoints kind).map (·.id) then some (-1, t, zk)
  else
    let t := t.setEndpoints kind (t.endpoints kind ++ [⟨id, participant, timelineUuid⟩])
    if t.timelineUuid = defaultTlname then
      -- the first endpoint gives the topic its timeline, and the nodes above its own
      (zkTopicCreate (zkTimelineCreate zk timelineUuid) timelineUuid t.topicName).map fun zk =>
        (0, { t with timelineUuid := timelineUuid },
          zkEndpointCreate zk timelineUuid t.topicName kind id)
    else some (0, t, zkEndpointCreate zk timelineUuid t.topicName kind id)

def addPublisher := addEndpoint .publisher

def addSubscriber := addEndpoint .subscriber

/-- Remove an endpoint. Its node is looked for under the timeline of the topic. -/
def removeEndpoint (kind : EndpointKind) (t : TopicInfo) (zk : List Znode) (id : Int32) :
    Int × TopicInfo × List Znode :=
  if id ∈ (t.endpoints kind).map (·.id) then
    (0, t.setEndpoints kind ((t.endpoints kind).filter fun e => e.id ≠ id),
      zkEndpointDelete zk t.timelineUuid t.topicName kind id)
  else (-1, t, zk)

def removePublisher := removeEndpoint .publisher

def removeSubscriber := removeEndpoint .subscriber

def deleteNodes (kind : EndpointKind) (t : TopicInfo) (zk : List Znode) : List Znode :=
  (t.endpoints kind).foldl
    (fun zk e => zkEndpointDelete zk t.timelineUuid t.topicName kind e.id) zk

def deleteTopicPubSubNodes (t : TopicInfo) (zk : List Znode) : List Znode :=
  t.deleteNodes .subscriber (t.deleteNodes .publisher zk)

end TopicInfo

/-- Whether a topic is global or global optimized; the others are not recorded. -/
def checkTopicInfo (topicName : String) : Bool :=
  "gl_".toList.isPrefixOf topicName.toList || "go_".toList.isPrefixOf topicName.toList

/-- The broker's tables, and ZooKeeper. -/
structure BrokerTables where
  topics : List TopicInfo
  timelines : List String
  zk : List Znode
  deriving DecidableEq, Repr

namespace BrokerTables

def empty : BrokerTables := ⟨[], [], []⟩

def getTopicInfo (s : BrokerTables) (topicId : Int32) (topicName : String) :
    BrokerTables :=
  if topicId ∈ s.topics.map (·.topicId) then s
  else { s with topics := s.topics ++ [TopicInfo.new topicId topicName] }

def deleteTopicInfo (s : BrokerTables) (topicId : Int32) : BrokerTables :=
  match s.topics.find? fun t => t.topicId = topicId with
  | none => s
  | some t =>
    { s with
      topics := s.topics.eraseP fun t => t.topicId = topicId
      zk := zkTopicDelete (t.deleteTopicPubSubNodes s.zk) t.timelineUuid t.topicName }

/-- Add a timeline, as the thread for timelines does. -/
def addTimeline (s : BrokerTables) (timeline : String) : BrokerTables :=
  if timeline ∈ s.timelines then s
  else
    { s with timelines := timeline :: s.timelines, zk := zkTimelineCreate s.zk timeline }

def removeTimeline (s : BrokerTables) (timeline : String) : BrokerTables :=
  if timeline ∈ s.timelines then
    { s with timelines := s.timelines.erase timeline, zk := zkTimelineDelete s.zk timeline }
  else s

end BrokerTables

/-- What the broker is called back with. An endpoint names its topic, and the first topic of that
name is meant (`getPublicationTopicInfo`, `getSubscriptionTopicInfo`). -/
inductive BrokerOp where
  | newTopic (topicId : Int32) (topicName : String)
  | deletedTopic (topicId : Int32) (topicName : String)
  | newEndpoint (kind : EndpointKind) (topicName : String) (participant id : Int32)
      (timeline : String)
  | deletedEndpoint (kind : EndpointKind) (topicName : String) (id : Int32)
  | newTimeline (timeline : String)
  | deletedTimeline (timeline : String)
  deriving DecidableEq, Repr

def BrokerTables.topicOf (s : BrokerTables) (topicName : String) : Option TopicInfo :=
  s.topics.find? fun t => t.topicName = topicName

/-- Write back a topic that was changed in place. -/
def BrokerTables.put (s : BrokerTables) (topicName : String) (t : TopicInfo) (zk : List Znode) :
    BrokerTables :=
  { s with topics := modifyAt TopicInfo.topicName topicName (fun _ => t) s.topics, zk := zk }

def brokerStep (s : BrokerTables) : BrokerOp → Option BrokerTables
  | .newTopic topicId topicName =>
    some (if checkTopicInfo topicName then s.getTopicInfo topicId topicName else s)
  | .deletedTopic topicId topicName =>
    some (if checkTopicInfo topicName then s.deleteTopicInfo topicId else s)
  | .newEndpoint kind topicName participant id timeline =>
    match s.topicOf topicName with
    | none => some s
    | some t =>
      let added := match kind with
        | .publisher => t.addPublisher s.zk participant id timeline
        | .subscriber => t.addSubscriber s.zk participant id timeline
      added.map fun r => s.put topicName r.2.1 r.2.2
  | .deletedEndpoint kind topicName id =>
    match s.topicOf topicName with
    | none => some s
    | some t =>
      let removed := match kind with
        | .publisher => t.removePublisher s.zk id
        | .subscriber => t.removeSubscriber s.zk id
      some (s.put topicName removed.2.1 removed.2.2)
  | .newTimeline timeline => some (s.addTimeline timeline)
  | .deletedTimeline timeline => some (s.removeTimeline timeline)

/-! ## The mirror -/

/-- An endpoint of a topic of this name is recorded, and was added with this timeline. -/
def Recorded (topics : List TopicInfo) (timeline topic : String) (kind : EndpointKind)
    (id : Int32) :
    Prop :=
  ∃ t ∈ topics, t.topicName = topic ∧ ∃ e ∈ t.endpoints kind, e.id = id ∧ e.given = timeline

/-- The nodes of endpoints are those of the recorded endpoints. -/
def Mirrors (s : BrokerTables) : Prop :=
  ∀ timeline topic kind id,
    Znode.endpoint timeline topic kind id ∈ s.zk ↔ Recorded s.topics timeline topic kind id

/-- No endpoint has been added to the topic. -/
abbrev TopicInfo.Untouched (t : TopicInfo) : Prop :=
  t.timelineUuid = defaultTlname ∧ t.publishers = [] ∧ t.subscribers = []

/-- An endpoint that is new comes with the timeline of its topic, or to a topic without endpoints
that has no timeline yet. -/
def MirrorSafe (s : BrokerTables) : BrokerOp → Prop
  | .newEndpoint kind topicName _ id timeline =>
    match s.topicOf topicName with
    | none => True
    | some t => id ∈ (t.endpoints kind).map (·.id) ∨ t.timelineUuid = timeline ∨ t.Untouched
  | _ => True

instance (s : BrokerTables) (op : BrokerOp) : Decidable (MirrorSafe s op) := by
  unfold MirrorSafe
  split
  · split <;> infer_instance
  · infer_instance

/-- What keeps the mirror: an endpoint has the timeline of its topic, the topic's nodes are there,
and only the first topic of a name has been touched. -/
structure MirrorInv (s : BrokerTables) : Prop where
  mirrors : Mirrors s
  given : ∀ t ∈ s.topics, ∀ kind, ∀ e ∈ t.endpoints kind, e.given = t.timelineUuid
  parents : ∀ t ∈ s.topics, t.timelineUuid ≠ defaultTlname →
    ∀ kind, Znode.endpoints t.timelineUuid t.topicName kind ∈ s.zk
  first : s.topics.Pairwise fun t u => t.topicName = u.topicName → u.Untouched

/-! ## The nodes -/

variable {zk : List Znode} {m : Znode} {kind : EndpointKind} {t : TopicInfo}

theorem mem_zooCreate {n : Znode} : m ∈ zooCreate zk n ↔ m ∈ zk ∨ m = n ∧ HasParent zk n := by
  simp only [zooCreate]
  split
  · rename_i h
    simp only [List.mem_cons]
    refine ⟨fun hm => ?_, fun hm => ?_⟩
    · rcases hm with rfl | hm
      · exact Or.inr ⟨rfl, h.1⟩
      · exact Or.inl hm
    · rcases hm with hm | ⟨rfl, -⟩
      · exact Or.inr hm
      · exact Or.inl rfl
  · rename_i h
    refine ⟨Or.inl, fun hm => ?_⟩
    rcases hm with hm | ⟨rfl, hparent⟩
    · exact hm
    · by_contra hnot
      exact h ⟨hparent, hnot⟩

theorem mem_zooDelete_of_ne {n : Znode} (h : m ≠ n) : m ∈ zooDelete zk n ↔ m ∈ zk := by
  simp only [zooDelete]
  split
  · rfl
  · simp [h]

/-- The node of an endpoint has no children. -/
theorem mem_zkEndpointDelete {timeline topic : String} {id : Int32} :
    m ∈ zkEndpointDelete zk timeline topic kind id
      ↔ m ∈ zk ∧ m ≠ .endpoint timeline topic kind id := by
  have hleaf : (zk.any fun n => n.parent = some (.endpoint timeline topic kind id)) = false := by
    rw [List.any_eq_false]
    intro n _
    cases n <;> simp [Znode.parent]
  simp [zkEndpointDelete, zooDelete, hleaf]

theorem zooCreateRepeat_of_parent (zk : List Znode) (n : Znode) (h : HasParent zk n) :
    ∃ zk', zooCreateRepeat zk n = some zk' ∧ ∀ m, m ∈ zk' ↔ m ∈ zk ∨ m = n := by
  refine ⟨zooCreate zk n, by simp [zooCreateRepeat, h], fun m => ?_⟩
  simp [mem_zooCreate, h]

/-- Making the nodes of a topic leaves those of endpoints alone, and ends with both parents
there. -/
theorem zkTopicCreate_spec (zk : List Znode) (timeline topic : String) :
    ∃ zk', zkTopicCreate (zkTimelineCreate zk timeline) timeline topic = some zk'
      ∧ (∀ kind, Znode.endpoints timeline topic kind ∈ zk') ∧ (∀ n ∈ zk, n ∈ zk')
      ∧ ∀ tl name kind id,
        Znode.endpoint tl name kind id ∈ zk' ↔ Znode.endpoint tl name kind id ∈ zk := by
  have h₀ : ∀ m, m ∈ zkTimelineCreate zk timeline ↔ m ∈ zk ∨ m = .timeline timeline := by
    intro m
    simp [zkTimelineCreate, mem_zooCreate, HasParent, Znode.parent]
  obtain ⟨zk₁, hcreate₁, h₁⟩ := zooCreateRepeat_of_parent (zkTimelineCreate zk timeline)
    (.topic timeline topic) (by simp [HasParent, Znode.parent, h₀])
  obtain ⟨zk₂, hcreate₂, h₂⟩ := zooCreateRepeat_of_parent zk₁
    (.endpoints timeline topic .publisher) (by simp [HasParent, Znode.parent, h₁])
  obtain ⟨zk₃, hcreate₃, h₃⟩ := zooCreateRepeat_of_parent zk₂
    (.endpoints timeline topic .subscriber) (by simp [HasParent, Znode.parent, h₁, h₂])
  refine ⟨zk₃, ?_, fun kind => ?_, fun n hn => ?_, fun tl name kind id => ?_⟩
  · simp [zkTopicCreate, hcreate₁, hcreate₂, hcreate₃]
  · cases kind <;> simp [h₂, h₃]
  · simp [h₀, h₁, h₂, h₃, hn]
  · simp [h₀, h₁, h₂, h₃]

theorem mem_deleteNodes :
    m ∈ t.deleteNodes kind zk
      ↔ m ∈ zk ∧ ∀ e ∈ t.endpoints kind, m ≠ .endpoint t.timelineUuid t.topicName kind e.id := by
  simp only [TopicInfo.deleteNodes]
  generalize t.endpoints kind = l
  induction l generalizing zk with
  | nil => simp
  | cons e l ih =>
    simp only [List.foldl_cons, ih, mem_zkEndpointDelete, List.forall_mem_cons]
    tauto

theorem mem_deleteTopicPubSubNodes :
    m ∈ t.deleteTopicPubSubNodes zk ↔ m ∈ zk ∧ ∀ kind, ∀ e ∈ t.endpoints kind,
      m ≠ .endpoint t.timelineUuid t.topicName kind e.id := by
  rw [TopicInfo.deleteTopicPubSubNodes, mem_deleteNodes, mem_deleteNodes, and_assoc]
  refine and_congr_right fun _ => ⟨fun hboth kind => ?_, fun hall => ⟨hall _, hall _⟩⟩
  cases kind
  · exact hboth.1
  · exact hboth.2

/-- Deleting the nodes of a topic deletes no others. -/
theorem mem_zkTopicDelete {timeline topic : String} (htopic : m ≠ .topic timeline topic)
    (hkinds : ∀ kind, m ≠ .endpoints timeline topic kind) :
    m ∈ zkTopicDelete zk timeline topic ↔ m ∈ zk := by
  simp only [zkTopicDelete]
  rw [mem_zooDelete_of_ne htopic, mem_zooDelete_of_ne (hkinds _), mem_zooDelete_of_ne (hkinds _)]

/-! ## The table -/

theorem TopicInfo.Untouched.endpoints (h : t.Untouched) (kind : EndpointKind) :
    t.endpoints kind = [] := by
  cases kind
  · exact h.2.1
  · exact h.2.2

theorem TopicInfo.Untouched.not_mem (h : t.Untouched) {e : Endpoint} : e ∉ t.endpoints kind := by
  rw [h.endpoints]
  exact List.not_mem_nil

theorem endpoints_setEndpoints (t : TopicInfo) (kind kind' : EndpointKind) (l : List Endpoint) :
    (t.setEndpoints kind l).endpoints kind' = if kind' = kind then l else t.endpoints kind' := by
  cases kind <;> cases kind' <;> rfl

@[simp] theorem setEndpoints_topicName (t : TopicInfo) (kind : EndpointKind) (l : List Endpoint) :
    (t.setEndpoints kind l).topicName = t.topicName := by
  cases kind <;> rfl

@[simp] theorem setEndpoints_timelineUuid (t : TopicInfo) (kind : EndpointKind)
    (l : List Endpoint) : (t.setEndpoints kind l).timelineUuid = t.timelineUuid := by
  cases kind <;> rfl

/-- The loops of `zk_topic_create` end: each finds the parent the one before has made. So every
callback of the broker returns. -/
theorem brokerStep_isSome (s : BrokerTables) (op : BrokerOp) : (brokerStep s op).isSome := by
  have hadd : ∀ kind (t : TopicInfo) participant id timeline,
      (t.addEndpoint kind s.zk participant id timeline).isSome := by
    intro kind t participant id timeline
    obtain ⟨zk, hcreate, -⟩ := zkTopicCreate_spec s.zk timeline t.topicName
    simp only [TopicInfo.addEndpoint, setEndpoints_topicName, hcreate]
    split
    · rfl
    · split <;> rfl
  cases op with
  | newEndpoint kind topicName participant id timeline =>
    simp only [brokerStep]
    split
    · rfl
    · rw [Option.isSome_map]
      cases kind
      · exact hadd .publisher _ _ _ _
      · exact hadd .subscriber _ _ _ _
  | deletedEndpoint kind topicName id =>
    simp only [brokerStep]
    split <;> rfl
  | _ => rfl

/-- An endpoint of this id and timeline is recorded in the topic. -/
def TopicInfo.Has (t : TopicInfo) (timeline : String) (kind : EndpointKind) (id : Int32) : Prop :=
  ∃ e ∈ t.endpoints kind, e.id = id ∧ e.given = timeline

section Recorded

variable {l₁ l₂ : List TopicInfo} {timeline topic : String} {id : Int32}

theorem recorded_append : Recorded (l₁ ++ l₂) timeline topic kind id
    ↔ Recorded l₁ timeline topic kind id ∨ Recorded l₂ timeline topic kind id := by
  simp only [Recorded, List.mem_append, or_and_right, exists_or]

theorem recorded_cons : Recorded (t :: l₁) timeline topic kind id
    ↔ (t.topicName = topic ∧ t.Has timeline kind id) ∨ Recorded l₁ timeline topic kind id := by
  simp only [Recorded, List.mem_cons, or_and_right, exists_or, exists_eq_left, TopicInfo.Has]

theorem not_recorded (h : ∀ t ∈ l₁, t.topicName = topic → t.Untouched) :
    ¬ Recorded l₁ timeline topic kind id := by
  rintro ⟨t, ht, hname, e, he, -⟩
  exact (h t ht hname).not_mem he

end Recorded

theorem topicOf_split {s : BrokerTables} {name : String} (h : s.topicOf name = some t) :
    t.topicName = name ∧ ∃ l₁ l₂, s.topics = l₁ ++ t :: l₂ ∧ (∀ u ∈ l₁, u.topicName ≠ name)
      ∧ ∀ t' zk, (s.put name t' zk).topics = l₁ ++ t' :: l₂ := by
  obtain ⟨hname, l₁, l₂, hsplit, hbefore⟩ := List.find?_eq_some_iff_append.mp h
  have hname' : t.topicName = name := by simpa using hname
  have hbefore' : ∀ u ∈ l₁, u.topicName ≠ name := fun u hu => by simpa using hbefore u hu
  refine ⟨hname', l₁, l₂, hsplit, hbefore', fun t' zk => ?_⟩
  simp only [BrokerTables.put, hsplit]
  exact modifyAt_append hbefore' hname'

/-- Writing back what was there changes nothing. -/
theorem put_self {s : BrokerTables} {name : String} (h : s.topicOf name = some t) :
    s.put name t s.zk = s := by
  obtain ⟨-, l₁, l₂, hsplit, -, hput⟩ := topicOf_split h
  have htopics : (s.put name t s.zk).topics = s.topics := (hput t s.zk).trans hsplit.symm
  simp only [BrokerTables.put] at htopics ⊢
  rw [htopics]

section
variable {s : BrokerTables} {name : String} {t t' : TopicInfo} (h : MirrorInv s)
  (ht : s.topicOf name = some t)
include h ht

/-- The first topic of a name has all the endpoints of that name; so after it is changed in
place. -/
theorem MirrorInv.recorded_put (hname : t'.topicName = name) (zk : List Znode)
    (timeline topic : String) (kind : EndpointKind) (id : Int32) :
    Recorded (s.put name t' zk).topics timeline topic kind id
      ↔ if topic = name then t'.Has timeline kind id
        else Recorded s.topics timeline topic kind id := by
  obtain ⟨htname, l₁, l₂, hsplit, hbefore, hput⟩ := topicOf_split ht
  have hfirst := h.first
  rw [hsplit] at hfirst
  have hafter : ∀ u ∈ l₂, u.topicName = name → u.Untouched := fun u hu huname =>
    (List.pairwise_cons.mp (List.pairwise_append.mp hfirst).2.1).1 u hu (htname.trans huname.symm)
  rw [hput, hsplit, recorded_append, recorded_cons, recorded_append, recorded_cons, hname, htname]
  split
  · next htopic =>
    subst htopic
    have hfront : ¬ Recorded l₁ timeline topic kind id :=
      not_recorded fun u hu huname => absurd huname (hbefore u hu)
    simp [hfront, not_recorded hafter]
  · -- the changed topic has another name
    next htopic => simp [Ne.symm htopic]

/-- The nodes of the endpoints of a topic's name are those of the topic. -/
theorem MirrorInv.mem_zk_iff_has (timeline : String) (kind : EndpointKind) (id : Int32) :
    Znode.endpoint timeline name kind id ∈ s.zk ↔ t.Has timeline kind id := by
  have hrecorded := h.recorded_put ht (topicOf_split ht).1 s.zk timeline name kind id
  rw [put_self ht, if_pos rfl] at hrecorded
  exact (h.mirrors timeline name kind id).trans hrecorded

omit h in
theorem mem_put_topics {u : TopicInfo} {zk' : List Znode}
    (hu : u ∈ (s.put name t' zk').topics) : u = t' ∨ u ∈ s.topics := by
  obtain ⟨-, l₁, l₂, hsplit, -, hput⟩ := topicOf_split ht
  rw [hput, List.mem_append, List.mem_cons] at hu
  rw [hsplit, List.mem_append, List.mem_cons]
  rcases hu with hu | rfl | hu
  · exact Or.inr (Or.inl hu)
  · exact Or.inl rfl
  · exact Or.inr (Or.inr (Or.inr hu))

/-- A topic that is changed in place is still the first of its name. -/
theorem MirrorInv.first_put (hname : t'.topicName = name) (zk' : List Znode) :
    (s.put name t' zk').topics.Pairwise fun t u => t.topicName = u.topicName → u.Untouched := by
  obtain ⟨htname, l₁, l₂, hsplit, hbefore, hput⟩ := topicOf_split ht
  have hfirst := h.first
  rw [hsplit, List.pairwise_append, List.pairwise_cons] at hfirst
  obtain ⟨hl₁, ⟨hafter, hl₂⟩, hcross⟩ := hfirst
  rw [hput, List.pairwise_append, List.pairwise_cons]
  refine ⟨hl₁, ⟨fun u hu huname => hafter u hu (htname.trans (hname.symm.trans huname)), hl₂⟩,
    fun u hu v hv huname => ?_⟩
  rcases List.mem_cons.mp hv with rfl | hv
  · exact absurd (huname.trans hname) (hbefore u hu)
  · exact hcross u hu v (List.mem_cons_of_mem _ hv) huname

/-- Changing a topic in place, with the nodes of its endpoints. -/
theorem MirrorInv.put {zk' : List Znode} (hname : t'.topicName = name)
    (hown : ∀ timeline kind id, Znode.endpoint timeline name kind id ∈ zk'
      ↔ t'.Has timeline kind id)
    (hothers : ∀ timeline topic kind id, topic ≠ name →
      (Znode.endpoint timeline topic kind id ∈ zk' ↔ Znode.endpoint timeline topic kind id ∈ s.zk))
    (hgiven : ∀ kind, ∀ e ∈ t'.endpoints kind, e.given = t'.timelineUuid)
    (hkept : ∀ timeline topic kind, Znode.endpoints timeline topic kind ∈ s.zk →
      Znode.endpoints timeline topic kind ∈ zk') (hparents : t'.timelineUuid ≠ defaultTlname →
      ∀ kind, Znode.endpoints t'.timelineUuid name kind ∈ zk') : MirrorInv (s.put name t' zk') := by
  refine ⟨fun timeline topic kind id => ?_, fun u hu => ?_, fun u hu => ?_,
    h.first_put ht hname zk'⟩
  · rw [h.recorded_put ht hname]
    split
    · rename_i htopic
      subst htopic
      exact hown timeline kind id
    · rename_i htopic
      exact (hothers timeline topic kind id htopic).trans (h.mirrors timeline topic kind id)
  · rcases mem_put_topics ht hu with rfl | hu
    · exact hgiven
    · exact h.given u hu
  · rcases mem_put_topics ht hu with rfl | hu
    · rw [hname]
      exact hparents
    · exact fun hne kind => hkept _ _ _ (h.parents u hu hne kind)

end

/-! ## The steps -/

/-- What a topic has after an endpoint is added to it. -/
theorem has_setEndpoints_append (t : TopicInfo) (kind : EndpointKind) (e : Endpoint)
    (timeline : String) (kind' : EndpointKind) (id : Int32) :
    (t.setEndpoints kind (t.endpoints kind ++ [e])).Has timeline kind' id
      ↔ t.Has timeline kind' id ∨ kind' = kind ∧ e.id = id ∧ e.given = timeline := by
  simp only [TopicInfo.Has, endpoints_setEndpoints]
  split
  · rename_i hkind
    subst hkind
    simp only [List.mem_append, List.mem_singleton, or_and_right, exists_or, exists_eq_left,
      true_and]
  · rename_i hkind
    simp [hkind]

/-- The endpoints of a topic after one is removed. -/
theorem mem_setEndpoints_filter {kind' : EndpointKind} {id : Int32} {e : Endpoint} :
    e ∈ (t.setEndpoints kind ((t.endpoints kind).filter fun e => e.id ≠ id)).endpoints kind'
      ↔ e ∈ t.endpoints kind' ∧ ¬ (kind' = kind ∧ e.id = id) := by
  rw [endpoints_setEndpoints]
  split
  · rename_i hkind
    subst hkind
    simp
  · rename_i hkind
    simp [hkind]

namespace MirrorInv
variable {s s' : BrokerTables} {name : String} {t : TopicInfo} {kind : EndpointKind} {id : Int32}
  (h : MirrorInv s)
include h

section Endpoint

variable (ht : s.topicOf name = some t)
include ht

variable (kind id) in
/-- An endpoint is recorded under the timeline of its topic, whose nodes are there. -/
theorem put_append (participant : Int32) {timeline : String} {zk : List Znode}
    (hnodes : ∀ tl topic kind id,
      Znode.endpoint tl topic kind id ∈ zk ↔ Znode.endpoint tl topic kind id ∈ s.zk)
    (hkept : ∀ n ∈ s.zk, n ∈ zk) (hparents : ∀ kind, Znode.endpoints timeline name kind ∈ zk)
    (hgiven : ∀ kind, ∀ e ∈ t.endpoints kind, e.given = timeline) :
    MirrorInv (s.put name
      { t.setEndpoints kind (t.endpoints kind ++ [⟨id, participant, timeline⟩]) with
        timelineUuid := timeline }
      (zkEndpointCreate zk timeline name kind id)) := by
  have hname : t.topicName = name := (topicOf_split ht).1
  have hcreate : ∀ m, m ∈ zkEndpointCreate zk timeline name kind id
      ↔ m ∈ zk ∨ m = .endpoint timeline name kind id := by
    intro m
    simp [zkEndpointCreate, mem_zooCreate, HasParent, Znode.parent, hparents]
  have hhas := has_setEndpoints_append t kind ⟨id, participant, timeline⟩
  refine h.put ht (by simpa using hname) (fun tl kind' id' => ?_) (fun tl topic kind' id' hne => ?_)
    (fun kind' e he => ?_) (fun tl topic kind' hm => ?_) (fun _ kind' => ?_)
  · rw [hcreate, hnodes, h.mem_zk_iff_has ht]
    refine Iff.trans ?_ (hhas tl kind' id').symm
    simp only [Znode.endpoint.injEq, true_and]
    tauto
  · rw [hcreate, hnodes]
    simp [hne]
  · have he' : e ∈ (t.setEndpoints kind
        (t.endpoints kind ++ [⟨id, participant, timeline⟩])).endpoints kind' := he
    rw [endpoints_setEndpoints] at he'
    split at he'
    · rcases List.mem_append.mp he' with he' | he'
      · exact hgiven kind e he'
      · rw [List.mem_singleton.mp he']
    · exact hgiven kind' e he'
  · exact (hcreate _).mpr (Or.inl (hkept _ hm))
  · exact (hcreate _).mpr (Or.inl (hparents kind'))

theorem addEndpoint {timeline : String} {participant : Int32} {r : Int × TopicInfo × List Znode}
    (hg : id ∈ (t.endpoints kind).map (·.id) ∨ t.timelineUuid = timeline ∨ t.Untouched)
    (hadd : t.addEndpoint kind s.zk participant id timeline = some r) :
    MirrorInv (s.put name r.2.1 r.2.2) := by
  have hname : t.topicName = name := (topicOf_split ht).1
  have hmem : t ∈ s.topics := List.mem_of_find?_eq_some ht
  simp only [TopicInfo.addEndpoint] at hadd
  split at hadd
  · -- it is there already
    cases hadd
    rw [put_self ht]
    exact h
  · rename_i hnew
    have hg' := hg.resolve_left hnew
    have hgiven : ∀ kind, ∀ e ∈ t.endpoints kind, e.given = timeline := by
      intro kind e he
      rcases hg' with htl | hun
      · exact htl ▸ h.given t hmem kind e he
      · exact absurd he hun.not_mem
    split at hadd
    · -- the topic gets its timeline, and its nodes
      obtain ⟨zk, hcreate, hparents, hkept, hnodes⟩ := zkTopicCreate_spec s.zk timeline t.topicName
      simp only [setEndpoints_topicName, hcreate, Option.map_some] at hadd
      cases hadd
      rw [hname] at hparents
      have hput := h.put_append kind id ht participant hnodes hkept hparents hgiven
      subst hname
      cases kind <;> exact hput
    · rename_i htouched
      rw [setEndpoints_timelineUuid] at htouched
      have htl : t.timelineUuid = timeline := hg'.resolve_right fun hun => htouched hun.1
      simp only [setEndpoints_topicName] at hadd
      cases hadd
      subst htl
      have hparents : ∀ kind, Znode.endpoints t.timelineUuid name kind ∈ s.zk := by
        rw [← hname]
        exact h.parents t hmem htouched
      have hput := h.put_append kind id ht participant
        (fun _ _ _ _ => Iff.rfl) (fun _ hn => hn) hparents hgiven
      subst hname
      cases kind <;> exact hput

theorem removeEndpoint :
    MirrorInv (s.put name (t.removeEndpoint kind s.zk id).2.1
      (t.removeEndpoint kind s.zk id).2.2) := by
  have hname : t.topicName = name := (topicOf_split ht).1
  have hmem : t ∈ s.topics := List.mem_of_find?_eq_some ht
  have hgiven := h.given t hmem
  simp only [TopicInfo.removeEndpoint]
  split
  · refine h.put ht (by simpa using hname) (fun tl kind' id' => ?_)
      (fun tl topic kind' id' hne => ?_) (fun kind' e he => ?_) (fun tl topic kind' hm => ?_)
      (fun hne kind' => ?_)
    · rw [mem_zkEndpointDelete, h.mem_zk_iff_has ht, hname]
      simp only [ne_eq, Znode.endpoint.injEq, true_and]
      refine ⟨fun ⟨⟨e, he, hid, htl⟩, hnot⟩ => ⟨e, ?_, hid, htl⟩, fun ⟨e, he, hid, htl⟩ => ?_⟩
      · -- its node is not the one that is deleted, and so it stays
        refine mem_setEndpoints_filter.mpr ⟨he, fun ⟨hkind, heid⟩ => hnot ⟨?_, hkind, hid ▸ heid⟩⟩
        exact htl ▸ hgiven kind' e he
      · obtain ⟨he', hnot⟩ := mem_setEndpoints_filter.mp he
        exact ⟨⟨e, he', hid, htl⟩, fun hboth => hnot ⟨hboth.2.1, hid.trans hboth.2.2⟩⟩
    · rw [mem_zkEndpointDelete, hname]
      simp [hne]
    · rw [setEndpoints_timelineUuid]
      exact hgiven kind' e (mem_setEndpoints_filter.mp he).1
    · exact mem_zkEndpointDelete.mpr ⟨hm, by simp⟩
    · rw [setEndpoints_timelineUuid] at hne ⊢
      refine mem_zkEndpointDelete.mpr ⟨?_, by simp⟩
      rw [← hname]
      exact h.parents t hmem hne kind'
  · show MirrorInv (s.put name t s.zk)
    rw [put_self ht]
    exact h

end Endpoint

/-- A new topic has no endpoints and no timeline. -/
theorem getTopicInfo (topicId : Int32) (topicName : String) :
    MirrorInv (s.getTopicInfo topicId topicName) := by
  simp only [BrokerTables.getTopicInfo]
  split
  · exact h
  · have hnew : (TopicInfo.new topicId topicName).Untouched := ⟨rfl, rfl, rfl⟩
    refine ⟨fun timeline topic kind id => ?_, fun t ht kind e he => ?_, fun t ht hne => ?_, ?_⟩
    · refine (h.mirrors timeline topic kind id).trans ?_
      have hnone : ¬ Recorded [TopicInfo.new topicId topicName] timeline topic kind id :=
        not_recorded (by simpa using fun _ => hnew)
      simp only [recorded_append, hnone, or_false]
    · rcases List.mem_append.mp ht with ht | ht
      · exact h.given t ht kind e he
      · rw [List.mem_singleton.mp ht] at he
        exact absurd he hnew.not_mem
    · rcases List.mem_append.mp ht with ht | ht
      · exact h.parents t ht hne
      · rw [List.mem_singleton.mp ht] at hne
        exact absurd hnew.1 hne
    · refine List.pairwise_append.mpr ⟨h.first, List.pairwise_singleton _ _, fun t _ u hu _ => ?_⟩
      rw [List.mem_singleton.mp hu]
      exact hnew

/-- Of two topics of one name, one is untouched. -/
theorem untouched_or {l₁ l₂ : List TopicInfo} (hsplit : s.topics = l₁ ++ t :: l₂)
    {u : TopicInfo} (hu : u ∈ l₁ ++ l₂) (hname : u.topicName = t.topicName) :
    t.Untouched ∨ u.Untouched := by
  have hfirst := h.first
  rw [hsplit, List.pairwise_append, List.pairwise_cons] at hfirst
  obtain ⟨-, ⟨hafter, -⟩, hcross⟩ := hfirst
  rcases List.mem_append.mp hu with hu | hu
  · exact Or.inl (hcross u hu t List.mem_cons_self hname)
  · exact Or.inr (hafter u hu hname.symm)

/-- A deleted topic takes the nodes of its endpoints with it, and no others. -/
theorem mem_deleted {l₁ l₂ : List TopicInfo} (hsplit : s.topics = l₁ ++ t :: l₂)
    (timeline topic : String) (kind : EndpointKind) (id : Int32) :
    Znode.endpoint timeline topic kind id ∈ t.deleteTopicPubSubNodes s.zk
      ↔ Recorded (l₁ ++ l₂) timeline topic kind id := by
  rw [mem_deleteTopicPubSubNodes, h.mirrors]
  refine ⟨fun ⟨⟨u, hu, huname, hhas⟩, hkept⟩ => ?_, fun ⟨u, hu, huname, hhas⟩ => ⟨?_, ?_⟩⟩
  · obtain ⟨e, he, heid, htl⟩ := hhas
    have hgiven := h.given u hu kind e he
    refine ⟨u, ?_, huname, e, he, heid, htl⟩
    rw [hsplit, List.mem_append, List.mem_cons] at hu
    rcases hu with hu | rfl | hu
    · exact List.mem_append_left _ hu
    · -- an endpoint of the deleted topic, whose node is gone
      exact absurd (by rw [← htl, hgiven, huname, heid]) (hkept kind e he)
    · exact List.mem_append_right _ hu
  · rw [hsplit, recorded_append, recorded_cons]
    exact (recorded_append.mp ⟨u, hu, huname, hhas⟩).imp_right Or.inr
  · -- an endpoint of another topic, which has another name if the deleted one has endpoints
    intro kind' e he hnode
    simp only [Znode.endpoint.injEq] at hnode
    rcases h.untouched_or hsplit hu (huname.trans hnode.2.1) with hun | hun
    · exact hun.not_mem he
    · obtain ⟨e', he', -⟩ := hhas
      exact hun.not_mem he'

theorem deleteTopicInfo (topicId : Int32) : MirrorInv (s.deleteTopicInfo topicId) := by
  simp only [BrokerTables.deleteTopicInfo]
  cases hfind : s.topics.find? fun t => t.topicId = topicId with
  | none => exact h
  | some t =>
    obtain ⟨hid, l₁, l₂, hsplit, hbefore⟩ := List.find?_eq_some_iff_append.mp hfind
    have herase : (s.topics.eraseP fun t => t.topicId = topicId) = l₁ ++ l₂ := by
      rw [hsplit, List.eraseP_append_right _ fun u hu => by simpa using hbefore u hu,
        List.eraseP_cons_of_pos (p := fun u : TopicInfo => u.topicId = topicId) hid]
    have hsublist : (l₁ ++ l₂).Sublist s.topics := by
      rw [hsplit]
      exact List.Sublist.append (List.Sublist.refl _) (List.sublist_cons_self _ _)
    simp only [herase]
    refine ⟨fun timeline topic kind id => ?_, fun u hu => h.given u (hsublist.subset hu),
      fun u hu hne kind => ?_, h.first.sublist hsublist⟩
    · rw [mem_zkTopicDelete (by simp) (by simp)]
      exact h.mem_deleted hsplit timeline topic kind id
    · have hkept : Znode.endpoints u.timelineUuid u.topicName kind ∈ s.zk :=
        h.parents u (hsublist.subset hu) hne kind
      have hdiffer : ∀ kind', Znode.endpoints u.timelineUuid u.topicName kind
          ≠ .endpoints t.timelineUuid t.topicName kind' := by
        intro kind' hnode
        simp only [Znode.endpoints.injEq] at hnode
        rcases h.untouched_or hsplit hu hnode.2.1 with hun | hun
        · exact hne (hnode.1.trans hun.1)
        · exact hne hun.1
      rw [mem_zkTopicDelete (by simp) hdiffer, mem_deleteTopicPubSubNodes]
      exact ⟨hkept, by simp⟩

/-- Nodes of timelines are neither endpoints nor their parents. -/
theorem of_timelines {timelines : List String} {zk : List Znode}
    (hzk : ∀ n, (∀ timeline, n ≠ .timeline timeline) → (n ∈ zk ↔ n ∈ s.zk)) :
    MirrorInv { s with timelines := timelines, zk := zk } where
  mirrors timeline topic kind id := (hzk _ (by simp)).trans (h.mirrors timeline topic kind id)
  given := h.given
  parents t ht hne kind := (hzk _ (by simp)).mpr (h.parents t ht hne kind)
  first := h.first

theorem step {op : BrokerOp} (hg : MirrorSafe s op) (hstep : brokerStep s op = some s') :
    MirrorInv s' := by
  cases op with
  | newTopic topicId topicName =>
    cases hstep
    split
    · exact h.getTopicInfo topicId topicName
    · exact h
  | deletedTopic topicId topicName =>
    cases hstep
    split
    · exact h.deleteTopicInfo topicId
    · exact h
  | newEndpoint kind topicName participant id timeline =>
    simp only [brokerStep] at hstep
    simp only [MirrorSafe] at hg
    split at hstep
    · cases hstep
      exact h
    · rename_i t ht
      simp only [ht] at hg
      obtain ⟨r, hadd, rfl⟩ := Option.map_eq_some_iff.mp hstep
      cases kind <;> exact h.addEndpoint ht hg hadd
  | deletedEndpoint kind topicName id =>
    simp only [brokerStep] at hstep
    split at hstep
    · cases hstep
      exact h
    · rename_i t ht
      cases hstep
      cases kind <;> exact h.removeEndpoint ht
  | newTimeline timeline =>
    cases hstep
    simp only [BrokerTables.addTimeline]
    split
    · exact h
    · refine h.of_timelines fun n hn => ?_
      simp [zkTimelineCreate, mem_zooCreate, hn timeline]
  | deletedTimeline timeline =>
    cases hstep
    simp only [BrokerTables.removeTimeline]
    split
    · exact h.of_timelines fun n hn => mem_zooDelete_of_ne (hn timeline)
    · exact h

end MirrorInv

theorem mirrorInv_empty : MirrorInv BrokerTables.empty where
  mirrors := by simp [Mirrors, BrokerTables.empty, Recorded]
  given := by simp [BrokerTables.empty]
  parents := by simp [BrokerTables.empty]
  first := List.Pairwise.nil

/-- **The mirror.** In every run of the broker whose steps are `MirrorSafe`, with any topics coming
and going, the nodes of endpoints in ZooKeeper are those of the endpoints in the table, each under
the timeline the endpoint was added with. -/
theorem endpoints_mirrored (ops : List BrokerOp)
    (h : AllSteps brokerStep MirrorSafe BrokerTables.empty ops) :
    AllStates brokerStep Mirrors BrokerTables.empty ops :=
  allStates_of_inv (fun _ hs => hs.mirrors) (fun _ _ _ hs hg hstep => hs.step hg hstep)
    mirrorInv_empty h

/-- A topic with a publisher and a subscriber on one timeline; the publisher leaves, and the topic
is deleted. -/
def oneTimelineTopic : List BrokerOp :=
  [.newTopic 1 "gl_t", .newEndpoint .publisher "gl_t" 7 10 "x",
    .newEndpoint .subscriber "gl_t" 8 11 "x", .deletedEndpoint .publisher "gl_t" 10,
    .deletedTopic 1 "gl_t"]

theorem endpoints_mirrored_oneTimelineTopic :
    AllSteps brokerStep MirrorSafe BrokerTables.empty oneTimelineTopic
      ∧ AllStates brokerStep Mirrors BrokerTables.empty oneTimelineTopic := by
  have hsafe : AllSteps brokerStep MirrorSafe BrokerTables.empty oneTimelineTopic := by
    decide +kernel
  exact ⟨hsafe, endpoints_mirrored oneTimelineTopic hsafe⟩

/-- A topic with a publisher on one timeline and a subscriber on another. -/
def twoTimelineTopic : List BrokerOp :=
  [.newTopic 1 "gl_t", .newEndpoint .publisher "gl_t" 7 10 "x",
    .newEndpoint .subscriber "gl_t" 8 11 "y"]

/-- The tables it ends with: the subscriber is recorded, and has no node. -/
def afterTwoTimelineTopic : BrokerTables where
  topics := [⟨1, "gl_t", "x", [⟨10, 7, "x"⟩], [⟨11, 8, "y"⟩]⟩]
  timelines := []
  zk := [.endpoint "x" "gl_t" .publisher 10, .endpoints "x" "gl_t" .subscriber,
    .endpoints "x" "gl_t" .publisher, .topic "x" "gl_t", .timeline "x"]

theorem subscriber_not_mirrored :
    ¬ AllStates brokerStep Mirrors BrokerTables.empty twoTimelineTopic := by
  intro h
  have hrun : exec brokerStep BrokerTables.empty twoTimelineTopic = some afterTwoTimelineTopic := by
    decide +kernel
  have hmirrors := h.exec hrun "y" "gl_t" .subscriber 11
  have hrecorded : Recorded afterTwoTimelineTopic.topics "y" "gl_t" .subscriber 11 :=
    ⟨_, List.mem_singleton_self _, rfl, _, List.mem_singleton_self _, rfl, rfl⟩
  exact absurd (hmirrors.mpr hrecorded) (by decide +kernel)

end Qot
