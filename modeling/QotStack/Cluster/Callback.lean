import QotStack.Cluster.Ready

/-!
# QotStack — the callbacks of a cluster

`DefineCluster` takes a callback that is to be told of each node that joins or leaves. It is kept by
the manager; the handlers have a copy of their own, made when the manager was constructed, and at
that time the callback is `NULL`. `watch_calls` says that the handlers would call back as they
should, and `callbacks_reach_iff` that with their copies the application is told of nothing.
-/

namespace Qot

namespace ClusterManager

variable {ν κ : Type} [LinearOrder ν]

/-- The callback of the latest `DefineCluster`. -/
def latestCallback : List (ManagerOp ν κ) → Option κ → Option κ
  | [], callback => callback
  | .defineCluster _ _ callback :: ops, _ => latestCallback ops callback
  | .writerUp :: ops, callback | .writerDown :: ops, callback | .join _ _ :: ops, callback
  | .leave _ :: ops, callback | .dispatch _ :: ops, callback => latestCallback ops callback

/-- The departures the second handler handles. -/
def departures (m : ClusterManager ν κ) : List (QotNode ν) :=
  if m.Departing then m.leftUsers.map (·.node .qotNodeLeft) else []

/-- The changes a dispatch handles, in order. -/
def changes (m : ClusterManager ν κ) (leftFirst : Bool) : List (QotNode ν) :=
  let joins := m.newUsers.map (·.node .qotNodeJoined)
  let departures := if m.livelinessChanged then m.departures else []
  if leftFirst then departures ++ joins else joins ++ departures

/-- Each change that a step handles is told to the callback of the manager, once and in order. -/
def Told (m : ClusterManager ν κ) (op : ManagerOp ν κ) : Prop :=
  ∀ m', m.step op = some m' →
    match op with
    | .dispatch leftFirst => m'.calls = m.calls ++ callBack m.nodeCallback (m.changes leftFirst)
    | .defineCluster _ _ _ | .writerUp | .writerDown | .join _ _ | .leave _ => m'.calls = m.calls

/-- The condition: no change is handled while there is somebody to tell. -/
def NobodyToTell (m : ClusterManager ν κ) : ManagerOp ν κ → Prop
  | .dispatch leftFirst => m.Pending → m.nodeCallback = none ∨ m.changes leftFirst = []
  | .defineCluster _ _ _ | .writerUp | .writerDown | .join _ _ | .leave _ => True

/-! ## The handlers -/

section Handlers

omit [LinearOrder ν] in
@[simp] theorem callBack_nil (callback : Option κ) :
    callBack callback ([] : List (QotNode ν)) = [] := by
  cases callback <;> rfl

omit [LinearOrder ν] in
theorem callBack_append (callback : Option κ) (nodes nodes' : List (QotNode ν)) :
    callBack callback (nodes ++ nodes') = callBack callback nodes ++ callBack callback nodes' := by
  cases callback with
  | none => rfl
  | some f => exact List.map_append

omit [LinearOrder ν] in
theorem callBack_eq_nil {callback : Option κ} {nodes : List (QotNode ν)} :
    callBack callback nodes = [] ↔ callback = none ∨ nodes = [] := by
  cases callback with
  | none => simp [callBack]
  | some f => simp [callBack]

variable {m : ClusterManager ν κ} {callback : Option κ}

theorem userLeftHandle_calls (h : m.userLeftHandler.nodeCallback = callback) :
    m.userLeftHandle.calls = m.calls ++ callBack callback m.departures := by
  unfold userLeftHandle departures
  split
  · rw [h]
  · rw [callBack_nil, List.append_nil]

theorem newUserHandle_departures : m.newUserHandle.departures = m.departures := by
  unfold departures
  rw [newUserHandle_leftUsers]
  rfl

theorem userLeft_newUserHandler : m.userLeft.newUserHandler = m.newUserHandler := by
  unfold userLeft userLeftHandle
  split
  · split <;> rfl
  · rfl

/-- **Handlers that have the callback tell it of every change**, once and in order. -/
theorem watch_calls (hnew : m.newUserHandler.nodeCallback = callback)
    (hleft : m.userLeftHandler.nodeCallback = callback) (leftFirst : Bool) :
    (m.watch leftFirst).calls = m.calls ++ callBack callback (m.changes leftFirst) := by
  have hjoins : ∀ m' : ClusterManager ν κ, m'.newUsers = m.newUsers →
      m'.newUserHandler = m.newUserHandler → m'.newUserHandle.calls
        = m'.calls ++ callBack callback (m.newUsers.map (·.node .qotNodeJoined)) := by
    intro m' husers hhandler
    rw [← husers, ← hnew, ← hhandler]
    rfl
  have hleaves : ∀ m' : ClusterManager ν κ, m'.livelinessChanged = m.livelinessChanged →
      m'.departures = m.departures → m'.userLeftHandler.nodeCallback = callback → m'.userLeft.calls
        = m'.calls ++ callBack callback (if m.livelinessChanged then m.departures else []) := by
    intro m' hflag hdepartures hcallback
    unfold userLeft
    rw [hflag]
    cases m.livelinessChanged with
    | true => exact (userLeftHandle_calls hcallback).trans (by rw [hdepartures]; rfl)
    | false => simp
  show (m.handle leftFirst).calls = _
  rw [handle_eq]
  unfold changes
  cases leftFirst with
  | true =>
    simp only [if_true]
    rw [hjoins _ newUsers_userLeft userLeft_newUserHandler, hleaves m rfl rfl hleft,
      callBack_append, List.append_assoc]
  | false =>
    simp only [Bool.false_eq_true, if_false]
    rw [hleaves m.newUserHandle rfl newUserHandle_departures hleft, hjoins m rfl rfl,
      callBack_append, List.append_assoc]

end Handlers

/-! ## Runs -/

section Runs

variable {m m' : ClusterManager ν κ}

/-- The copies of the handlers are `NULL`. -/
def Unset (m : ClusterManager ν κ) : Prop :=
  m.newUserHandler.nodeCallback = none ∧ m.userLeftHandler.nodeCallback = none

omit [LinearOrder ν] in
theorem unset_init : (init : ClusterManager ν κ).Unset := ⟨rfl, rfl⟩

theorem userLeft_callbacks :
    m.userLeft.userLeftHandler.nodeCallback = m.userLeftHandler.nodeCallback
      ∧ m.userLeft.nodeCallback = m.nodeCallback := by
  unfold userLeft userLeftHandle
  split
  · split <;> exact ⟨rfl, rfl⟩
  · exact ⟨rfl, rfl⟩

/-- A dispatch leaves the callback and its copies as they are. -/
theorem watch_callbacks (leftFirst : Bool) :
    (m.watch leftFirst).newUserHandler = m.newUserHandler
      ∧ (m.watch leftFirst).userLeftHandler.nodeCallback = m.userLeftHandler.nodeCallback
      ∧ (m.watch leftFirst).nodeCallback = m.nodeCallback := by
  show (m.handle leftFirst).newUserHandler = _
    ∧ (m.handle leftFirst).userLeftHandler.nodeCallback = _
    ∧ (m.handle leftFirst).nodeCallback = _
  rw [handle_eq]
  cases leftFirst with
  | true => exact ⟨userLeft_newUserHandler, userLeft_callbacks⟩
  | false => exact ⟨userLeft_newUserHandler (m := m.newUserHandle), userLeft_callbacks⟩

/-- What a step makes of the callback: `DefineCluster` sets that of the manager, and does not reach
the copies. -/
theorem step_callbacks {op : ManagerOp ν κ} (hstep : m.step op = some m') :
    m'.newUserHandler.nodeCallback = m.newUserHandler.nodeCallback
      ∧ m'.userLeftHandler.nodeCallback = m.userLeftHandler.nodeCallback
      ∧ m'.nodeCallback = latestCallback [op] m.nodeCallback := by
  revert hstep
  fun_cases step m op with
  | case3 | case5 | case8 | case10 => rintro ⟨⟩ -- not enabled
  | case9 leftFirst => -- dispatch
    rintro ⟨⟩
    obtain ⟨hnew, hleft, hcallback⟩ := m.watch_callbacks leftFirst
    exact ⟨congrArg NewUserHandler.nodeCallback hnew, hleft, hcallback⟩
  | _ =>
    rintro ⟨⟩
    exact ⟨rfl, rfl, rfl⟩

theorem unset_step {op : ManagerOp ν κ} (hm : m.Unset) (hstep : m.step op = some m') :
    m'.Unset := by
  obtain ⟨hnew, hleft, -⟩ := step_callbacks hstep
  exact ⟨hnew.trans hm.1, hleft.trans hm.2⟩

omit [LinearOrder ν] in
theorem latestCallback_cons (op : ManagerOp ν κ) (ops : List (ManagerOp ν κ))
    (callback : Option κ) :
    latestCallback (op :: ops) callback = latestCallback ops (latestCallback [op] callback) := by
  cases op <;> rfl

/-- The callback of the manager is that of the latest `DefineCluster`. -/
theorem nodeCallback_exec {ops : List (ManagerOp ν κ)} (h : Runs.exec step m ops = some m') :
    m'.nodeCallback = latestCallback ops m.nodeCallback := by
  induction ops generalizing m with
  | nil =>
    cases h
    rfl
  | cons op ops ih =>
    obtain ⟨m₁, hstep, hexec⟩ := Option.bind_eq_some_iff.mp h
    rw [ih hexec, (step_callbacks hstep).2.2, ← latestCallback_cons]

theorem told_iff (hm : m.Unset) (op : ManagerOp ν κ) : m.Told op ↔ m.NobodyToTell op := by
  have hsilent : ∀ leftFirst, (m.watch leftFirst).calls = m.calls := fun leftFirst =>
    (watch_calls hm.1 hm.2 leftFirst).trans (List.append_nil _)
  constructor
  · intro h
    cases op with
    | dispatch leftFirst =>
      intro hpending
      have hcalls := h (m.watch leftFirst) (if_pos hpending)
      rw [hsilent] at hcalls
      exact callBack_eq_nil.mp (List.self_eq_append_right.mp hcalls)
    | _ => trivial
  · intro h m' hstep
    revert hstep
    fun_cases step m op with
    | case3 | case5 | case8 | case10 => rintro ⟨⟩ -- not enabled
    | case9 leftFirst hpending => -- dispatch
      rintro ⟨⟩
      show (m.watch leftFirst).calls = _
      rw [hsilent, callBack_eq_nil.mpr (h hpending), List.append_nil]
    | _ =>
      rintro ⟨⟩
      rfl

/-- **Changes reach the callback exactly on the runs that have no callback to reach.** For every
sequence of `DefineCluster` calls with any callbacks, of writers and names that come and go, and of
dispatches with the handlers in either order: each change that is handled is told to the callback of
the manager, which is that of the latest `DefineCluster`, once, in order, with the name of the node
and the kind of the change, if and only if no change is handled while that callback is not
`NULL`. -/
theorem callbacks_reach_iff (ops : List (ManagerOp ν κ)) :
    (Runs.AllSteps step Told (init : ClusterManager ν κ) ops
        ↔ Runs.AllSteps step NobodyToTell (init : ClusterManager ν κ) ops)
      ∧ ∀ m : ClusterManager ν κ, Runs.exec step init ops = some m →
        m.nodeCallback = latestCallback ops none := by
  refine ⟨?_, fun m h => nodeCallback_exec h⟩
  exact Runs.allSteps_iff_of_inv (J := Unset) (fun _ op hm => told_iff hm op)
    (fun _ _ _ hm _ hstep => unset_step hm hstep) unset_init

end Runs

/-- The cluster is defined with a callback, and then a node joins. -/
def callbackSet : List (ManagerOp Nat Unit) :=
  [.defineCluster [1] nodup_one (some ()), .writerUp, .join 1 7]

/-- **The callback is not called**, although a node joins and leaves, and both are handled. -/
theorem never_called :
    ((Runs.exec step init (callbackSet ++ [.dispatch true])).map fun m =>
        (m.nodeCallback, m.aliveNodes, m.calls)) = some (some (), [1], [])
      ∧ ((Runs.exec step init (callbackSet ++ [.dispatch true, .writerDown, .leave 1,
          .dispatch true])).map fun m =>
        (m.nodeCallback, m.aliveNodes, m.calls)) = some (some (), [], [])
      ∧ ¬ Runs.AllSteps step Told (init : ClusterManager Nat Unit)
        (callbackSet ++ [.dispatch true]) := by
  have hcalls : ((Runs.exec step init callbackSet).bind fun m =>
      (m.step (.dispatch true)).map fun m' =>
        (m'.calls, m.calls ++ callBack m.nodeCallback (m.changes true)))
        = some ([], [((), ⟨1, 7, .qotNodeJoined⟩)]) := by decide
  refine ⟨by decide, by decide, fun h => ?_⟩
  obtain ⟨m, hm, hstep⟩ := Option.bind_eq_some_iff.mp hcalls
  obtain ⟨m', hm', hpair⟩ := Option.map_eq_some_iff.mp hstep
  obtain ⟨hnone, hone⟩ := Prod.mk.inj hpair
  have htold : m'.calls = m.calls ++ callBack m.nodeCallback (m.changes true) :=
    (h.after_exec hm).1 m' hm'
  rw [hnone, hone] at htold
  cases htold

end ClusterManager

end Qot
