import Dlads.StepMachine
import Dlads.StringMaps

/-!
# The node registry

`NodeRegistry` keeps, for each node that ever pinged, when it was first and
last seen, the number of its alerts, its address and whether it counts as
dead. Several threads of the coordinator call it under its mutex; each call is
one step, and a clock is read in the calls that need it. What a call does to
one node depends on that node alone.
-/

namespace Dlads.Registry

open ByteText StringMaps StepMachine

/-- `NodeStatus`. -/
inductive NodeStatus
  | alive | dead
  deriving DecidableEq

/-- `NodeInfo`. -/
structure NodeInfo where
  /-- The node. -/
  nodeId : Bytes := []
  /-- Its address, empty when no ping told it. -/
  hostIp : Bytes := []
  /-- Whether it counts as dead. -/
  status : NodeStatus := .alive
  /-- Time of the last ping. -/
  lastSeenSec : ℤ := 0
  /-- Time of the first ping. -/
  firstSeenSec : ℤ := 0
  /-- Number of alerts. -/
  alertsSent : ℤ := 0
  deriving DecidableEq

/-- The data members of `NodeRegistry` but for its mutex. -/
structure NodeRegistry where
  /-- `dead_threshold_`. -/
  deadThreshold : ℤ
  /-- `nodes_`. -/
  nodes : StringMap NodeInfo
  deriving DecidableEq

/-- A new registry. -/
def NodeRegistry.init (deadThreshold : ℤ) : NodeRegistry := ⟨deadThreshold, ∅⟩

/-- The entry of a node after a ping. -/
def pinged (known : Option NodeInfo) (nodeId hostIp : Bytes) (now : ℤ) : NodeInfo :=
  match known with
  | none =>
    { nodeId := nodeId
      hostIp := hostIp
      lastSeenSec := now
      firstSeenSec := now
      status := .alive }
  | some info =>
    { info with
      lastSeenSec := now
      status := .alive
      hostIp := if !hostIp.isEmpty then hostIp else info.hostIp }

/-- `NodeRegistry::ping` at a clock reading. -/
def NodeRegistry.ping (registry : NodeRegistry) (nodeId hostIp : Bytes) (now : ℤ) :
    NodeRegistry :=
  { registry with
    nodes := assign registry.nodes nodeId
      (pinged (registry.nodes.lookup nodeId) nodeId hostIp now) }

/-- One more alert of a node. -/
def NodeInfo.countAlert (info : NodeInfo) : NodeInfo :=
  { info with alertsSent := info.alertsSent + 1 }

/-- `NodeRegistry::record_alert`. -/
def NodeRegistry.recordAlert (registry : NodeRegistry) (nodeId : Bytes) : NodeRegistry :=
  { registry with nodes := update NodeInfo.countAlert registry.nodes nodeId }

/-- A node that has been silent for too long is dead. -/
def NodeInfo.judge (deadThreshold now : ℤ) (info : NodeInfo) : NodeInfo :=
  if info.status = .alive ∧ deadThreshold < now - info.lastSeenSec then
    { info with status := .dead }
  else info

/-- `NodeRegistry::check_dead_nodes` at a clock reading. -/
def NodeRegistry.checkDeadNodes (registry : NodeRegistry) (now : ℤ) : NodeRegistry :=
  { registry with nodes := updateAll (NodeInfo.judge registry.deadThreshold now) registry.nodes }

/-- `NodeRegistry::all_nodes`. -/
def NodeRegistry.allNodes (registry : NodeRegistry) : List NodeInfo := values registry.nodes

/-- `NodeRegistry::alive_count`. -/
def NodeRegistry.aliveCount (registry : NodeRegistry) : ℤ :=
  (values registry.nodes).foldl
    (fun count info => if info.status = .alive then count + 1 else count) 0

/-- A call of the registry. -/
inductive Call
  /-- `ping`. -/
  | ping (nodeId hostIp : Bytes)
  /-- `record_alert`. -/
  | recordAlert (nodeId : Bytes)
  /-- `check_dead_nodes`. -/
  | checkDeadNodes
  /-- `all_nodes`. -/
  | allNodes
  /-- `alive_count`. -/
  | aliveCount
  deriving DecidableEq

/-- What a call returns. -/
inductive Reply
  /-- Nothing. -/
  | done
  /-- The entries. -/
  | nodes (entries : List NodeInfo)
  /-- A count. -/
  | count (n : ℤ)

/-- The registry under calls, each at a clock reading. -/
def registryMachine : Machine NodeRegistry (Call × ℤ) Reply where
  step := fun registry input =>
    match input.1 with
    | .ping nodeId hostIp => (registry.ping nodeId hostIp input.2, .done)
    | .recordAlert nodeId => (registry.recordAlert nodeId, .done)
    | .checkDeadNodes => (registry.checkDeadNodes input.2, .done)
    | .allNodes => (registry, .nodes registry.allNodes)
    | .aliveCount => (registry, .count registry.aliveCount)

section calls

/-- The node a call pings. -/
def Call.pinged : Call → Option Bytes
  | .ping nodeId _ => some nodeId
  | _ => none

/-- What a call that is no ping of a node does to the node's entry. -/
def Call.touch (deadThreshold now : ℤ) (id : Bytes) (info : NodeInfo) : Call → NodeInfo
  | .recordAlert nodeId => if id = nodeId then info.countAlert else info
  | .checkDeadNodes => info.judge deadThreshold now
  | _ => info

variable (registry : NodeRegistry) (call : Call) (now : ℤ) (id : Bytes)

/-- A ping of a node sets its entry. -/
theorem lookup_step_of_ping {hostIp : Bytes} (h : call = .ping id hostIp) :
    (registryMachine.step registry (call, now)).1.nodes.lookup id =
      some (Registry.pinged (registry.nodes.lookup id) id hostIp now) := by
  rw [h]
  exact (lookup_assign registry.nodes id id _).trans (if_pos rfl)

/-- Any other call touches the entry of a node, if there is one. -/
theorem lookup_step_of_no_ping (h : call.pinged ≠ some id) :
    (registryMachine.step registry (call, now)).1.nodes.lookup id =
      (registry.nodes.lookup id).map fun info =>
        call.touch registry.deadThreshold now id info := by
  cases call with
  | ping nodeId hostIp =>
    have hne : id ≠ nodeId := fun he => h (congrArg some he.symm)
    refine (lookup_assign registry.nodes nodeId id _).trans ?_
    rw [if_neg hne]
    exact Option.map_id'.symm
  | recordAlert nodeId =>
    refine (lookup_update NodeInfo.countAlert registry.nodes nodeId id).trans ?_
    by_cases hid : id = nodeId
    · simp only [Call.touch, hid, if_true]
    · simp only [Call.touch, hid, if_false, Option.map_id']
  | checkDeadNodes => exact lookup_updateAll _ registry.nodes id
  | allNodes => exact Option.map_id'.symm
  | aliveCount => exact Option.map_id'.symm

theorem deadThreshold_step :
    (registryMachine.step registry (call, now)).1.deadThreshold = registry.deadThreshold := by
  cases call <;> rfl

variable (deadThreshold : ℤ) (info : NodeInfo)

/-- A touched entry keeps its node, its address and its times. -/
theorem touch_frame : (call.touch deadThreshold now id info).nodeId = info.nodeId ∧
    (call.touch deadThreshold now id info).hostIp = info.hostIp ∧
    (call.touch deadThreshold now id info).lastSeenSec = info.lastSeenSec ∧
    (call.touch deadThreshold now id info).firstSeenSec = info.firstSeenSec := by
  cases call with
  | recordAlert nodeId =>
    unfold Call.touch
    dsimp only
    split <;> exact ⟨rfl, rfl, rfl, rfl⟩
  | checkDeadNodes =>
    unfold Call.touch NodeInfo.judge
    dsimp only
    split <;> exact ⟨rfl, rfl, rfl, rfl⟩
  | _ => exact ⟨rfl, rfl, rfl, rfl⟩

/-- Only `record_alert` counts. -/
theorem touch_alertsSent : (call.touch deadThreshold now id info).alertsSent =
    info.alertsSent + if call = .recordAlert id then 1 else 0 := by
  cases call with
  | recordAlert nodeId =>
    unfold Call.touch
    dsimp only
    by_cases hid : id = nodeId
    · rw [if_pos hid, if_pos (by rw [hid])]
      rfl
    · rw [if_neg hid, if_neg fun h => hid (Call.recordAlert.inj h).symm, add_zero]
  | checkDeadNodes =>
    have hsame : (info.judge deadThreshold now).alertsSent = info.alertsSent := by
      unfold NodeInfo.judge
      split <;> rfl
    exact hsame.trans (by simp)
  | _ => simp [Call.touch]

/-- Only `check_dead_nodes` declares a node dead, after too long a silence. -/
theorem touch_status : (call.touch deadThreshold now id info).status = .dead ↔
    info.status = .dead ∨ call = .checkDeadNodes ∧ deadThreshold < now - info.lastSeenSec := by
  cases call with
  | recordAlert nodeId =>
    unfold Call.touch
    dsimp only
    split <;> simp [NodeInfo.countAlert]
  | checkDeadNodes =>
    unfold Call.touch NodeInfo.judge
    cases hs : info.status <;> by_cases hd : deadThreshold < now - info.lastSeenSec <;>
      simp [hs, hd]
  | _ => simp [Call.touch]

end calls

/-- `alive_count` counts the known nodes that are alive. -/
theorem aliveCount_eq (registry : NodeRegistry) : registry.aliveCount =
    ((registry.nodes.keys.filter fun id =>
      (registry.nodes.lookup id).any fun info => info.status = .alive).card : ℤ) := by
  have hfold : ∀ (entries : List NodeInfo) (count : ℤ), entries.foldl
      (fun count info => if info.status = .alive then count + 1 else count) count =
      count + entries.countP fun info => decide (info.status = .alive) := by
    intro entries
    induction entries with
    | nil => simp
    | cons info rest ih =>
      intro count
      rw [List.foldl_cons, ih, List.countP_cons]
      by_cases hs : info.status = .alive
      · simp [hs]
        omega
      · simp [hs]
  rw [NodeRegistry.aliveCount, hfold, countP_values, zero_add]

end Dlads.Registry
