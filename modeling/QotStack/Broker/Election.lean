import Mathlib.Data.Fintype.Basic
import Mathlib.Logic.Function.Basic
import QotStack.Lib.Hex
import QotStack.Lib.Runs

/-!
# QotStack — the election of a master broker

The brokers of a group agree on a master through ZooKeeper: each tries to create one ephemeral node
with its server id in it, whoever succeeds is the leader, and the others watch the node and try
again when it is gone (`service/broker/zk_logic.c`).

The callbacks of a broker are functions of its variables; what they send is part of their result. A
`Cluster` puts any number of brokers together with the service: the node, the sessions, and on the
way between them the requests, the completions and the watch events, which are served and handled in
any order. A request whose connection is lost may have been served, or be served later, or never.

The service is linearizable, so a request is served in one step. Each broker has one session all its
life, as the code opens no other, and a broker handles the end of its session before another broker
handles a completion. Logging, and the nodes of timelines and topics, are left out.
-/

namespace Qot

/-! ## One broker -/

/-- The variables of a broker. -/
structure Broker where
  serverId : UInt32
  connected : Bool
  expired : Bool
  leader : Bool
  deriving DecidableEq, Repr

/-- The return codes a completion tells apart. -/
inductive Rc where
  | zok
  | zconnectionloss
  | zoperationtimeout
  | znonode
  | znodeexists
  | other
  deriving DecidableEq, Repr

inductive SessionState where
  | connected
  | connecting
  | expiredSession
  deriving DecidableEq, Repr

inductive WatchType where
  | created
  | deleted
  deriving DecidableEq, Repr

/-- The calls on the node of the group: `zoo_acreate`, `zoo_aget` and `zoo_awexists`. -/
inductive Request where
  | create (value : List Char)
  | get
  | awexists
  deriving DecidableEq, Repr

/-- What a broker is called back with. -/
inductive Event where
  | created (rc : Rc)
  | got (rc : Rc) (value : List Char)
  | existed (rc : Rc)
  | watch (type : WatchType)
  | session (state : SessionState)
  deriving DecidableEq, Repr

def Event.IsCompletion : Event → Prop
  | .created _ | .got _ _ | .existed _ => True
  | .watch _ | .session _ => False

instance : DecidablePred Event.IsCompletion := fun e => by
  unfold Event.IsCompletion; split <;> infer_instance

/-- The server id as it is written to the node, in a buffer of nine characters. -/
def serverIdString (serverId : UInt32) : List Char := (Hex.print serverId.toNat).take 8

/-- The variables after a callback, and the request it sends. -/
abbrev Callback := Broker × Option Request

def mainWatcher (b : Broker) : SessionState → Broker
  | .connected => { b with connected := true }
  | .connecting => { b with connected := false }
  -- the session is over, and `leader` is left as it is
  | .expiredSession => { b with expired := true, connected := false }

def takeLeadership (b : Broker) : Callback := ({ b with leader := true }, none)

def checkMaster (b : Broker) : Callback := (b, some .get)

def masterExists (b : Broker) : Callback := ({ b with leader := false }, some .awexists)

/-- Broker registration, and active/standby master election. -/
def runForMaster (b : Broker) : Callback :=
  if b.connected then (b, some (.create (serverIdString b.serverId))) else (b, none)

def masterCheckCompletion (b : Broker) (rc : Rc) (value : List Char) : Callback :=
  match rc with
  | .zconnectionloss | .zoperationtimeout => checkMaster b
  | .zok => if Hex.scan value = some b.serverId.toNat then takeLeadership b else masterExists b
  | .znonode => runForMaster b
  | .znodeexists | .other => (b, none)

def masterExistsWatcher (b : Broker) : WatchType → Callback
  | .deleted => runForMaster b
  | .created => (b, none)

def masterExistsCompletion (b : Broker) : Rc → Callback
  | .zconnectionloss | .zoperationtimeout => masterExists b
  | .znonode => runForMaster b
  | .zok | .znodeexists | .other => (b, none)

def masterCreateCompletion (b : Broker) : Rc → Callback
  | .zconnectionloss => checkMaster b
  | .zok => takeLeadership b
  | .znodeexists => masterExists b
  | .zoperationtimeout | .znonode | .other => (b, none)

def Broker.handle (b : Broker) : Event → Callback
  | .created rc => masterCreateCompletion b rc
  | .got rc value => masterCheckCompletion b rc value
  | .existed rc => masterExistsCompletion b rc
  | .watch type => masterExistsWatcher b type
  | .session state => (mainWatcher b state, none)

/-! ## The cluster -/

/-- A broker, its session, and what is between the two. `ghosts` are requests that have been
answered with an error and may still be served; `fired` are watch events that have not come in
yet. -/
structure Client where
  broker : Broker
  started : Bool
  live : Bool
  watching : Bool
  outstanding : List Request
  ghosts : List Request
  fired : List WatchType
  inbox : List Event
  deriving DecidableEq, Repr

/-- The node is there with its owner and its content, or it is not. -/
structure Cluster (ι : Type) where
  clients : ι → Client
  master : Option (ι × List Char)

def Client.start (serverId : UInt32) : Client :=
  ⟨⟨serverId, false, false, false⟩, false, true, false, [], [], [], []⟩

def Cluster.start {ι : Type} (serverId : ι → UInt32) : Cluster ι :=
  ⟨fun i => Client.start (serverId i), none⟩

/-- A watch fires once. -/
def Client.fire (cl : Client) (type : WatchType) : Client :=
  if cl.watching then { cl with watching := false, fired := cl.fired ++ [type] } else cl

def Client.receive (cl : Client) (e : Event) : Client := { cl with inbox := cl.inbox ++ [e] }

/-- Run a callback. -/
def Client.run (cl : Client) (r : Callback) : Client :=
  { cl with broker := r.1, outstanding := cl.outstanding ++ r.2.toList }

/-- The completion with which a request fails. -/
def Request.failed : Request → Rc → Event
  | .create _, rc => .created rc
  | .get, rc => .got rc []
  | .awexists, rc => .existed rc

/-- The answer to a request. -/
def Request.answer {ι : Type} (master : Option (ι × List Char)) : Request → Event
  | .create _ => .created (if master.isNone then .zok else .znodeexists)
  | .get =>
    match master with
    | none => .got .znonode []
    | some (_, value) => .got .zok value
  | .awexists => .existed (if master.isNone then .znonode else .zok)

section Steps

variable {ι : Type} [DecidableEq ι]

def Cluster.modify (c : Cluster ι) (i : ι) (f : Client → Client) : Cluster ι :=
  { c with clients := Function.update c.clients i (f (c.clients i)) }

def Cluster.fire (c : Cluster ι) (type : WatchType) : Cluster ι :=
  { c with clients := fun j => (c.clients j).fire type }

/-- What serving a request of `i` does to the node. -/
def Cluster.serve (c : Cluster ι) (i : ι) : Request → Cluster ι
  | .create value =>
    match c.master with
    | none => { c with master := some (i, value) }.fire .created
    | some _ => c
  | .get | .awexists => c

/-- The end of the session of `i`: its node goes with it. -/
def Cluster.expire (c : Cluster ι) (i : ι) : Cluster ι :=
  let c' := c.modify i fun cl =>
    { cl with live := false, ghosts := [] }.receive (.session .expiredSession)
  match c.master with
  | some (owner, _) => if owner = i then { c' with master := none }.fire .deleted else c'
  | none => c'

inductive ClusterOp (ι : Type) where
  | start (i : ι)
  | session (i : ι) (connected : Bool)
  /-- request `k` is served, and its answer may be `lost` -/
  | serve (i : ι) (k : Nat) (lost : Bool)
  /-- request `k` fails, and may still be served later -/
  | fail (i : ι) (k : Nat) (rc : Rc)
  | late (i : ι) (k : Nat)
  | notify (i : ι) (k : Nat)
  | expire (i : ι)
  | handle (i : ι) (k : Nat)
  deriving DecidableEq, Repr

/-- The return codes of a request that was not answered. -/
def Rc.IsFailure : Rc → Prop
  | .zconnectionloss | .zoperationtimeout | .other => True
  | .zok | .znonode | .znodeexists => False

instance : DecidablePred Rc.IsFailure := fun rc => by
  unfold Rc.IsFailure; split <;> infer_instance

/-- No other broker has the end of its session still to handle. -/
abbrev Cluster.Free (c : Cluster ι) (i : ι) : Prop :=
  ∀ j, j ≠ i → .session .expiredSession ∉ (c.clients j).inbox

def clusterStep [Fintype ι] (c : Cluster ι) : ClusterOp ι → Option (Cluster ι)
  | .start i =>
    if (c.clients i).started then none
    else
      some (c.modify i fun cl => { cl with started := true }.run (runForMaster cl.broker))
  | .session i connected =>
    if (c.clients i).live then
      some (c.modify i fun cl =>
        cl.receive (.session (if connected then .connected else .connecting)))
    else none
  | .serve i k lost =>
    match (c.clients i).outstanding[k]? with
    | none => none
    | some r =>
      if (c.clients i).live then
        some ((c.serve i r).modify i fun cl =>
          { cl with
            outstanding := cl.outstanding.eraseIdx k
            watching := cl.watching || (decide (r = Request.awexists) && !lost) }.receive
              (if lost then r.failed .zconnectionloss else r.answer c.master))
      else none
  | .fail i k rc =>
    match (c.clients i).outstanding[k]? with
    | none => none
    | some r =>
      if rc.IsFailure then
        some (c.modify i fun cl =>
          { cl with
            outstanding := cl.outstanding.eraseIdx k
            ghosts := cl.ghosts ++ [r] }.receive (r.failed rc))
      else none
  | .late i k =>
    match (c.clients i).ghosts[k]? with
    | none => none
    | some r =>
      if (c.clients i).live then
        some ((c.serve i r).modify i fun cl => { cl with ghosts := cl.ghosts.eraseIdx k })
      else none
  | .notify i k =>
    ((c.clients i).fired[k]?).map fun type =>
      c.modify i fun cl => { cl with fired := cl.fired.eraseIdx k }.receive (.watch type)
  | .expire i => if (c.clients i).live then some (c.expire i) else none
  | .handle i k =>
    match (c.clients i).inbox[k]? with
    | none => none
    | some e =>
      if e.IsCompletion → c.Free i then
        some (c.modify i fun cl =>
          { cl with inbox := cl.inbox.eraseIdx k }.run (cl.broker.handle e))
      else none

end Steps

end Qot
