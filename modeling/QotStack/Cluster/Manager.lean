import Mathlib.Data.List.Sort
import QotStack.Lib.SortedRange

/-!
# QotStack — the cluster manager (`api/cpp/lib/ClusterManager.cpp`, `ClusterHandlers.cpp`)

An application that coordinates with others defines a cluster of nodes by their names, and waits
until all of them are there. Nodes announce themselves over DDS: each publishes one sample of
`NameService` under its name. The manager has two handlers: one for instances that are new, one for
a change in the number of live writers; a thread waits for either, runs the handlers whose condition
holds, and works out whether the cluster is ready.

The two handlers watch two readers. Names come from the reader of `QoT_NameService`; the writers
that are counted are those of the messages (`QoT_Messaging`), which a node creates before it
announces its name, and loses apart from it. So the number of live writers is a state of its own,
and a writer that comes or goes is a step of its own; that a name is announced or no longer alive
changes only the instances.

The reader keeps one sample of an instance (`KeepLast(1)`), with its view, sample and instance
state. Handlers that are triggered together run in either order, on the state at that time. Every
sample has valid data. The names are of any type with a linear order: the buffer of 64 characters
into which `strcpy` copies a name for the callback is left out, as are the end of the thread and
what is printed.
-/

namespace Qot

inductive QotNodeStatus where
  | qotNodeJoined
  | qotNodeLeft
  deriving DecidableEq, Repr

/-- `qot_node_t`. -/
structure QotNode (ν : Type) where
  name : ν
  userID : Int32
  status : QotNodeStatus
  deriving DecidableEq, Repr

/-- An instance of `NameService` in the reader: its sample, whether it is alive, whether its view is
new, and whether the sample has not been read. -/
structure NameInstance (ν : Type) where
  name : ν
  userID : Int32
  alive : Bool
  newView : Bool
  notRead : Bool
  deriving DecidableEq, Repr

namespace NameInstance

variable {ν : Type}

/-- The data state of the read condition. -/
def isNew (i : NameInstance ν) : Bool := i.notRead && i.newView && i.alive

def read (i : NameInstance ν) : NameInstance ν :=
  if i.isNew then { i with newView := false, notRead := false } else i

def node (i : NameInstance ν) (status : QotNodeStatus) : QotNode ν := ⟨i.name, i.userID, status⟩

end NameInstance

/-- The handlers, each with the callback it was constructed with. -/
structure NewUserHandler (κ : Type) where
  nodeCallback : Option κ
  deriving DecidableEq, Repr

structure UserLeftHandler (κ : Type) where
  prevAliveCount : Nat
  nodeCallback : Option κ
  deriving DecidableEq, Repr

/-- The manager with its handlers and readers: the instances of names, and of the reader of messages
the number of live writers and whether that has changed. `calls` are the callbacks that have been
made. -/
structure ClusterManager (ν κ : Type) where
  clusterNodes : List ν
  aliveNodes : List ν
  nodeCallback : Option κ
  newUserHandler : NewUserHandler κ
  userLeftHandler : UserLeftHandler κ
  readyFlag : Bool
  reader : List (NameInstance ν)
  aliveCount : Nat
  livelinessChanged : Bool
  calls : List (κ × QotNode ν)
  deriving DecidableEq, Repr

/-- What happens: `DefineCluster` with distinct names, a writer of messages that comes up or goes
down, a name that is announced or no longer alive, and the thread dispatching the handlers that are
triggered. -/
inductive ManagerOp (ν κ : Type) where
  | defineCluster (nodes : List ν) (distinct : nodes.Nodup) (callback : Option κ)
  | writerUp
  | writerDown
  | join (name : ν) (userID : Int32)
  | leave (name : ν)
  | dispatch (leftFirst : Bool)

/-- Call back, unless the callback is `NULL`. -/
def callBack {ν κ : Type} (callback : Option κ) (nodes : List (QotNode ν)) : List (κ × QotNode ν) :=
  match callback with
  | none => []
  | some f => nodes.map fun node => (f, node)

namespace ClusterManager

variable {ν κ : Type}

/-- The constructor: the handlers are given the callback, which is `NULL`. -/
def init : ClusterManager ν κ :=
  let nodeCallback := none
  ⟨[], [], nodeCallback, ⟨nodeCallback⟩, ⟨0, nodeCallback⟩, false, [], 0, false, []⟩

/-- The samples the first handler reads. -/
def newUsers (m : ClusterManager ν κ) : List (NameInstance ν) := m.reader.filter (·.isNew)

/-- The samples the second handler takes, if there are fewer writers than before. -/
def leftUsers (m : ClusterManager ν κ) : List (NameInstance ν) := m.reader.filter (!·.alive)

/-- A condition of the wait set is triggered. -/
abbrev Pending (m : ClusterManager ν κ) : Prop :=
  m.livelinessChanged = true ∨ m.reader.any (·.isNew) = true

abbrev Alive (m : ClusterManager ν κ) (name : ν) : Prop :=
  ∃ i ∈ m.reader, i.name = name ∧ i.alive = true

section Steps

variable [LinearOrder ν]

def newUserHandle (m : ClusterManager ν κ) : ClusterManager ν κ :=
  { m with
    aliveNodes := SortedRange.insertAll (m.newUsers.map (·.name)) m.aliveNodes
    calls :=
      m.calls ++ callBack m.newUserHandler.nodeCallback (m.newUsers.map (·.node .qotNodeJoined))
    reader := m.reader.map (·.read) }

def userLeftHandle (m : ClusterManager ν κ) : ClusterManager ν κ :=
  let m' :=
    if m.aliveCount < m.userLeftHandler.prevAliveCount then
      { m with
        aliveNodes := SortedRange.eraseAll (m.leftUsers.map (·.name)) m.aliveNodes
        calls :=
          m.calls ++ callBack m.userLeftHandler.nodeCallback (m.leftUsers.map (·.node .qotNodeLeft))
        reader := m.reader.filter (·.alive) }
    else m
  -- reading the status resets it
  { m' with userLeftHandler.prevAliveCount := m.aliveCount, livelinessChanged := false }

/-- The handlers whose conditions are triggered. -/
def handle (m : ClusterManager ν κ) (leftFirst : Bool) : ClusterManager ν κ :=
  let newUser m' := if m.reader.any (·.isNew) then newUserHandle m' else m'
  let userLeft m' := if m.livelinessChanged then userLeftHandle m' else m'
  if leftFirst then newUser (userLeft m) else userLeft (newUser m)

/-- The rest of the loop of `watch`. -/
def ready (m : ClusterManager ν κ) : Bool :=
  SortedRange.includes m.aliveNodes m.clusterNodes && !m.clusterNodes.isEmpty
    && !m.aliveNodes.isEmpty

def watch (m : ClusterManager ν κ) (leftFirst : Bool) : ClusterManager ν κ :=
  let m' := m.handle leftFirst
  { m' with readyFlag := m'.ready }

def defineCluster (m : ClusterManager ν κ) (nodes : List ν) (callback : Option κ) :
    ClusterManager ν κ :=
  { m with clusterNodes := nodes.insertionSort (· ≤ ·), nodeCallback := callback }

/-- The number of live writers changes. -/
def recount (m : ClusterManager ν κ) (aliveCount : Nat) : ClusterManager ν κ :=
  { m with aliveCount := aliveCount, livelinessChanged := true }

/-- A node announces its name: the instance is there anew. -/
def joined (m : ClusterManager ν κ) (name : ν) (userID : Int32) : ClusterManager ν κ :=
  { m with reader := m.reader.filter (·.name ≠ name) ++ [⟨name, userID, true, true, true⟩] }

/-- The instance of a name is no longer alive, which triggers no condition. -/
def left (m : ClusterManager ν κ) (name : ν) : ClusterManager ν κ :=
  { m with
    reader := m.reader.map fun i => if i.name = name then { i with alive := false } else i }

def step (m : ClusterManager ν κ) : ManagerOp ν κ → Option (ClusterManager ν κ)
  | .defineCluster nodes _ callback => some (m.defineCluster nodes callback)
  | .writerUp => some (m.recount (m.aliveCount + 1))
  | .writerDown => if m.aliveCount = 0 then none else some (m.recount (m.aliveCount - 1))
  | .join name userID => if m.Alive name then none else some (m.joined name userID)
  | .leave name => if m.Alive name then some (m.left name) else none
  | .dispatch leftFirst => if m.Pending then some (m.watch leftFirst) else none

end Steps

end ClusterManager

end Qot
