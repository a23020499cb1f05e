import Dlads.AgentProcesses
import Dlads.LossyChannel
import Dlads.RestBodies

/-!
# Agents, network and coordinator

Any number of agent processes, each with a connection for its alerts and one
for its heartbeats, both of which may lose messages, and one coordinator with
its receivers and its watchdog. Two processes with one node id are one
machine's process before and after its restart, or two machines that were given
the same id; the coordinator cannot tell. Its process may be replaced by a new
one on the same database. All steps interleave. What the coordinator gets from
a process is, in order, what the process raised, less what is counted as lost.
-/

namespace Dlads.DistributedRuns

open ByteText StringMaps FloatFormat Records JsonValue AlertWire WireRoundTrip AlertPublishing
open Correlation AlertDatabase Registry Heartbeats StepMachine LossyChannel PrintedAlerts AgentProcesses
open AgentPipeline (stampAlert)

/-- Processes, connections and coordinator. -/
structure Network (ι : Type*) where
  /-- The agents' processes. -/
  agents : ι → AgentProcess
  /-- The connection of each publisher to the coordinator. -/
  wires : ι → Channel Bytes
  /-- The connection of each heartbeat thread to the coordinator. -/
  beats : ι → Channel Bytes
  /-- The coordinator's process and its database. -/
  coordinator : RestBodies.System

/-- What happens next. -/
inductive Action (ι : Type*)
  /-- A process takes a step. -/
  | agent (i : ι) (action : AgentProcesses.Action)
  /-- An alert on a connection never arrives. -/
  | lose (i : ι) (k : ℕ)
  /-- `zmq_alert_receiver` gets the next message of a connection. -/
  | deliver (i : ι) (nowSec now : ℤ)
  /-- The heartbeat thread of a process sends. -/
  | beat (i : ι) (timestamp : ℤ)
  /-- A heartbeat never arrives. -/
  | loseBeat (i : ι) (k : ℕ)
  /-- `zmq_heartbeat_receiver` gets the next message of a connection. -/
  | deliverBeat (i : ι) (nowSec : ℤ)
  /-- The watchdog checks the nodes. -/
  | check (nowSec : ℤ)
  /-- The coordinator's process is replaced by a new one on the same database. -/
  | restart

/-- The clock readings of a step fit in 64 bits, and so does what `mktime`
returns. -/
def Action.Clocked {ι : Type*} : Action ι → Prop
  | .agent _ action => action.Clocked
  | .deliver _ nowSec _ => IsInt64 nowSec
  | .deliverBeat _ nowSec => IsInt64 nowSec
  | _ => True

/-- What a step brings about. -/
inductive Event (ι : Type*)
  /-- Nothing of the following. -/
  | quiet
  /-- A callback got alerts. -/
  | raised (i : ι) (alerts : List AlertEvent)
  /-- The coordinator accepted an alert, which may complete a threat. -/
  | received (i : ι) (alert : AlertEvent) (now : ℤ) (threat : Option CorrelatedThreat)

/-- The programs and what they are started with. -/
structure Deployed (ι : Type*) where
  /-- The JSON library. -/
  lib : JsonLibrary
  /-- What each process is started with. -/
  site : ι → Site

section steps

variable {ι : Type*} [DecidableEq ι] (d : Deployed ι)

/-- All processes started, and a coordinator on a new database. -/
def Network.init : Network ι where
  agents := fun i => .init (d.site i)
  wires := fun _ => .empty
  beats := fun _ => .empty
  coordinator := .start

/-- The heartbeat of a process. -/
def heartbeatOf (site : Site) (p : AgentProcess) (timestamp : ℤ) : HeartbeatMessage where
  nodeId := site.nodeId
  timestamp := timestamp
  alertsSent := EveLines.wrapInt32 p.publisher.sent.toNat
  status := text "ALIVE"

namespace Network

variable (s : Network ι)

/-- A process takes a step; what it sends is on its connection then. -/
def stepAgent (i : ι) (action : AgentProcesses.Action) : Network ι :=
  { s with
    agents := Function.update s.agents i ((s.agents i).step d.lib (d.site i) action)
    wires := Function.update s.wires i ((s.wires i).put ((s.agents i).handsOver action)) }

/-- One pass of `zmq_alert_receiver` on the next message of a connection. -/
def deliver (i : ι) (nowSec now : ℤ) : Network ι × Event ι :=
  match (s.wires i).inFlight with
  | [] => (s, .quiet)
  | raw :: _ =>
    let s := { s with wires := Function.update s.wires i (s.wires i).take }
    match deserialize d.lib.parse raw with
    | none => (s, .quiet)
    | some alert =>
      ({ s with coordinator := s.coordinator.alert alert nowSec now },
        .received i alert now (s.coordinator.coordinator.receive alert now).2)

/-- One pass of `heartbeat_loop`, which `main` joins before it resets
`g_publisher`. An exception ends the agent's process. -/
def beat (i : ι) (timestamp : ℤ) : Network ι :=
  if (s.agents i).crashed || !(s.agents i).globals.publisher then s
  else
    match (heartbeatOf (d.site i) (s.agents i) timestamp).toJSON d.lib.dump with
    | none => { s with agents := Function.update s.agents i { s.agents i with crashed := true } }
    | some raw => { s with beats := Function.update s.beats i ((s.beats i).put raw) }

/-- One pass of `zmq_heartbeat_receiver` on the next message of a connection. -/
def deliverBeat (i : ι) (nowSec : ℤ) : Network ι :=
  match (s.beats i).inFlight with
  | [] => s
  | raw :: _ =>
    let s := { s with beats := Function.update s.beats i (s.beats i).take }
    match heartbeatCall raw with
    | none => s
    | some call =>
      { s with coordinator := { s.coordinator with
          registry := (registryMachine.step s.coordinator.registry (call, nowSec)).1 } }

/-- The coordinator's process is replaced. -/
def restart : Network ι :=
  { s with coordinator := ⟨.start s.coordinator.coordinator.store.reopen, .init 30⟩ }

/-- A step of anyone. -/
def step : Action ι → Network ι × Event ι
  | .agent i action =>
    (s.stepAgent d i action,
      match (s.agents i).raises d.lib (d.site i) action with
      | [] => .quiet
      | alerts => .raised i alerts)
  | .lose i k => ({ s with wires := Function.update s.wires i ((s.wires i).lose k) }, .quiet)
  | .deliver i nowSec now => s.deliver d i nowSec now
  | .beat i timestamp => (s.beat d i timestamp, .quiet)
  | .loseBeat i k => ({ s with beats := Function.update s.beats i ((s.beats i).lose k) }, .quiet)
  | .deliverBeat i nowSec => (s.deliverBeat i nowSec, .quiet)
  | .check nowSec =>
    ({ s with coordinator := { s.coordinator with
        registry := s.coordinator.registry.checkDeadNodes nowSec } }, .quiet)
  | .restart => (s.restart, .quiet)

end Network

/-- Processes, connections and coordinator, in any order of steps. -/
def distributed : Machine (Network ι) (Action ι) (Event ι) where
  step := fun s action => s.step d action

end steps

/-- A run of the whole system. -/
structure Run (ι : Type*) extends Deployed ι where
  /-- What happens, in order. -/
  actions : ℕ → Action ι

/-- All hosts have clocks and calendars of 64 bits. -/
def Run.Clocked {ι : Type*} (run : Run ι) : Prop := ∀ n, (run.actions n).Clocked

section events

variable {ι : Type*} [DecidableEq ι]

/-- The alerts that callbacks of a process got. -/
def Event.raisedBy (i : ι) : Event ι → List AlertEvent
  | .raised j alerts => if i = j then alerts else []
  | _ => []

/-- The alert that the coordinator accepted from a process. -/
def Event.receivedFrom (i : ι) : Event ι → List AlertEvent
  | .received j alert _ _ => if i = j then [alert] else []
  | _ => []

/-- The alert that a step brings to the coordinator. -/
def Event.arrival? : Event ι → Option AlertEvent
  | .received _ alert _ _ => some alert
  | _ => none

/-- The threat that a step completes. -/
def Event.completed? : Event ι → Option CorrelatedThreat
  | .received _ _ _ threat => threat
  | _ => none

omit [DecidableEq ι] in
theorem Event.received_of_arrival {event : Event ι} {alert : AlertEvent}
    (h : event.arrival? = some alert) : ∃ i now threat, event = .received i alert now threat := by
  cases event with
  | received i alert' now threat =>
    cases h
    exact ⟨i, now, threat, rfl⟩
  | quiet | raised => cases h

omit [DecidableEq ι] in
theorem Event.received_of_completed {event : Event ι} {threat : CorrelatedThreat}
    (h : event.completed? = some threat) :
    ∃ i alert now, event = .received i alert now (some threat) := by
  cases event with
  | received i alert now threat' =>
    cases h
    exact ⟨i, alert, now, rfl⟩
  | quiet | raised => cases h

omit [DecidableEq ι] in
/-- A step without an alert completes no threat. -/
theorem Event.completed_of_quiet {event : Event ι} (h : event.arrival? = none) :
    event.completed? = none := by
  cases event with
  | received => cases h
  | quiet | raised => rfl

end events

namespace Run

variable {ι : Type*} [DecidableEq ι] (run : Run ι)

/-- The system before a step. -/
def stateAt (n : ℕ) : Network ι :=
  (distributed run.toDeployed).stateAt (.init run.toDeployed) run.actions n

/-- What a step brings about. -/
def eventAt (n : ℕ) : Event ι :=
  (distributed run.toDeployed).outputAt (.init run.toDeployed) run.actions n

/-- A process before a step. -/
def agentAt (n : ℕ) (i : ι) : AgentProcess := (run.stateAt n).agents i

/-- The connection of a publisher before a step. -/
def wireAt (n : ℕ) (i : ι) : Channel Bytes := (run.stateAt n).wires i

/-- The correlation engine before a step. -/
def engineAt (n : ℕ) : CorrelationEngine := (run.stateAt n).coordinator.coordinator.engine

/-- The registry before a step. -/
def registryAt (n : ℕ) : NodeRegistry := (run.stateAt n).coordinator.registry

/-- The alerts that callbacks of a process got before a step, in order. -/
def raisedBefore (n : ℕ) (i : ι) : List AlertEvent :=
  (List.range n).flatMap fun k => (run.eventAt k).raisedBy i

/-- The alerts that the coordinator accepted from a process before a step, in
order. -/
def receivedBefore (n : ℕ) (i : ι) : List AlertEvent :=
  (List.range n).flatMap fun k => (run.eventAt k).receivedFrom i

end Run

section coordinator

variable {ι : Type*} [DecidableEq ι] (d : Deployed ι) (s : Network ι)

/-- What a step does to the registry without an alert. -/
def RegistryMoves (action : Action ι) (registry : NodeRegistry) : Prop :=
  registry = s.coordinator.registry ∨
  (∃ i raw call nowSec, action = .deliverBeat i nowSec ∧ raw ∈ (s.beats i).inFlight ∧
    heartbeatCall raw = some call ∧
    registry = (registryMachine.step s.coordinator.registry (call, nowSec)).1) ∨
  ∃ nowSec, registry = s.coordinator.registry.checkDeadNodes nowSec

/-- What a step does to the coordinator: it takes in an alert, is replaced, or
hears of nodes. -/
theorem coordinator_step (action : Action ι) :
    (∃ i raw alert nowSec now, action = .deliver i nowSec now ∧
      (s.step d action).2 =
        .received i alert now (s.coordinator.coordinator.receive alert now).2 ∧
      deserialize d.lib.parse raw = some alert ∧
      (s.step d action).1.coordinator = s.coordinator.alert alert nowSec now) ∨
    (s.step d action).2.arrival? = none ∧
      (action = .restart ∧ (s.step d action).1.coordinator =
          ⟨.start s.coordinator.coordinator.store.reopen, .init 30⟩ ∨
        action ≠ .restart ∧
          (s.step d action).1.coordinator.coordinator = s.coordinator.coordinator ∧
          RegistryMoves s action (s.step d action).1.coordinator.registry) := by
  cases action with
  | agent i action =>
    refine .inr ⟨?_, .inr ⟨by simp, rfl, .inl rfl⟩⟩
    dsimp only [Network.step]
    split <;> rfl
  | deliver i nowSec now =>
    dsimp only [Network.step, Network.deliver]
    split
    · exact .inr ⟨rfl, .inr ⟨by simp, rfl, .inl rfl⟩⟩
    · split
      · exact .inr ⟨rfl, .inr ⟨by simp, rfl, .inl rfl⟩⟩
      · next hraw => exact .inl ⟨i, _, _, nowSec, now, rfl, rfl, hraw, rfl⟩
  | beat i timestamp =>
    refine .inr ⟨rfl, .inr ⟨by simp, ?_⟩⟩
    dsimp only [Network.step, Network.beat]
    split
    · exact ⟨rfl, .inl rfl⟩
    · split <;> exact ⟨rfl, .inl rfl⟩
  | deliverBeat i nowSec =>
    refine .inr ⟨rfl, .inr ⟨by simp, ?_⟩⟩
    dsimp only [Network.step, Network.deliverBeat]
    split
    · exact ⟨rfl, .inl rfl⟩
    · next raw rest hflight =>
      split
      · exact ⟨rfl, .inl rfl⟩
      · next call hcall =>
        exact ⟨rfl, .inr (.inl ⟨i, raw, call, nowSec, rfl,
          by rw [hflight]; exact List.mem_cons_self, hcall, rfl⟩)⟩
  | check nowSec => exact .inr ⟨rfl, .inr ⟨by simp, rfl, .inr (.inr ⟨nowSec, rfl⟩)⟩⟩
  | restart => exact .inr ⟨rfl, .inl ⟨rfl, rfl⟩⟩
  | lose i k => exact .inr ⟨rfl, .inr ⟨by simp, rfl, .inl rfl⟩⟩
  | loseBeat i k => exact .inr ⟨rfl, .inr ⟨by simp, rfl, .inl rfl⟩⟩

end coordinator

section moves

variable {ι : Type*} [DecidableEq ι] {run : Run ι} {n : ℕ} {i : ι}

/-- A step of a process changes its process and its connection only. -/
theorem agent_succ {action : AgentProcesses.Action} (h : run.actions n = .agent i action) :
    run.agentAt (n + 1) = Function.update (run.agentAt n) i
        ((run.agentAt n i).step run.lib (run.site i) action) ∧
      run.wireAt (n + 1) = Function.update (run.wireAt n) i
        ((run.wireAt n i).put ((run.agentAt n i).handsOver action)) := by
  have hstate : run.stateAt (n + 1) = ((run.stateAt n).step run.toDeployed (run.actions n)).1 := rfl
  constructor
  · funext j
    rw [Run.agentAt, hstate, h]
    rfl
  · funext j
    rw [Run.wireAt, hstate, h]
    rfl

/-- A pass of `heartbeat_loop` throws in `toJSON`. -/
def BeatThrows (run : Run ι) (n : ℕ) (i : ι) : Prop := ∃ timestamp,
  run.actions n = .beat i timestamp ∧ (run.agentAt n i).crashed = false ∧
    (run.agentAt n i).globals.publisher = true ∧
    (heartbeatOf (run.site i) (run.agentAt n i) timestamp).toJSON run.lib.dump = none

/-- What a step of a run does to a process. -/
theorem agent_moves (run : Run ι) (n : ℕ) (i : ι) :
    (∃ action, run.actions n = .agent i action ∧
      run.agentAt (n + 1) i = (run.agentAt n i).step run.lib (run.site i) action) ∨
    (∀ action, run.actions n ≠ .agent i action) ∧
      (¬BeatThrows run n i ∧ run.agentAt (n + 1) i = run.agentAt n i ∨
        BeatThrows run n i ∧ run.agentAt (n + 1) i = { run.agentAt n i with crashed := true }) := by
  have hstate : run.stateAt (n + 1) = ((run.stateAt n).step run.toDeployed (run.actions n)).1 := rfl
  have hsilent : (∀ timestamp, run.actions n ≠ .beat i timestamp) → ¬BeatThrows run n i :=
    fun hno ⟨timestamp, hbeat, _⟩ => hno timestamp hbeat
  cases hact : run.actions n with
  | agent j action =>
    by_cases hj : i = j
    · subst hj
      refine .inl ⟨action, rfl, ?_⟩
      rw [(agent_succ hact).1, Function.update_self]
    · refine .inr ⟨fun other h => hj (by injection h with h _; exact h.symm),
        .inl ⟨hsilent (by simp [hact]), ?_⟩⟩
      rw [(agent_succ hact).1, Function.update_of_ne hj]
  | deliver j nowSec now =>
    refine .inr ⟨fun _ => by simp, .inl ⟨hsilent (by simp [hact]), ?_⟩⟩
    rw [Run.agentAt, hstate, hact]
    dsimp only [Network.step, Network.deliver]
    split
    · rfl
    · split <;> rfl
  | beat j timestamp =>
    refine .inr ⟨fun _ => by simp, ?_⟩
    have hthis : ∀ t, run.actions n = .beat i t → j = i := by
      intro t ht
      rw [hact] at ht
      injection ht
    rw [Run.agentAt, hstate, hact]
    dsimp only [Network.step, Network.beat]
    split
    · next hskip =>
      refine .inl ⟨fun ⟨t, ht, hup, hopen, _⟩ => ?_, rfl⟩
      obtain rfl := hthis t ht
      simp only [Run.agentAt] at hup hopen
      simp [hup, hopen] at hskip
    · next hrun =>
      simp only [Bool.or_eq_true, Bool.not_eq_true', not_or, Bool.not_eq_true,
        Bool.not_eq_false] at hrun
      split
      · next hthrow =>
        dsimp only
        by_cases hj : i = j
        · subst hj
          rw [Function.update_self]
          exact .inr ⟨⟨timestamp, hact, hrun.1, hrun.2, hthrow⟩, rfl⟩
        · rw [Function.update_of_ne hj]
          exact .inl ⟨fun ⟨t, ht, _⟩ => hj (hthis t ht).symm, rfl⟩
      · next raw hraw =>
        refine .inl ⟨fun ⟨t, ht, _, _, hnone⟩ => ?_, rfl⟩
        obtain rfl := hthis t ht
        rw [hact] at ht
        injection ht with _ ht
        subst ht
        exact absurd (hraw.symm.trans hnone) (by simp)
  | deliverBeat j nowSec =>
    refine .inr ⟨fun _ => by simp, .inl ⟨hsilent (by simp [hact]), ?_⟩⟩
    rw [Run.agentAt, hstate, hact]
    dsimp only [Network.step, Network.deliverBeat]
    split
    · rfl
    · split <;> rfl
  | lose j k | loseBeat j k | check nowSec | restart =>
    refine .inr ⟨fun _ => by simp, .inl ⟨hsilent (by simp [hact]), ?_⟩⟩
    rw [Run.agentAt, hstate, hact]
    rfl

/-- The next message of a connection is received if it can be deserialized. -/
theorem received_of_deliver {nowSec now : ℤ} {raw : Bytes} {rest : List Bytes} {alert : AlertEvent}
    (h : run.actions n = .deliver i nowSec now) (hwire : (run.wireAt n i).inFlight = raw :: rest)
    (hraw : AlertWire.deserialize run.lib.parse raw = some alert) :
    (∃ threat, run.eventAt n = .received i alert now threat) ∧
      ∀ j ≠ i, run.wireAt (n + 1) j = run.wireAt n j := by
  have hflight : ((run.stateAt n).wires i).inFlight = raw :: rest := hwire
  have hevent : run.eventAt n = ((run.stateAt n).step run.toDeployed (run.actions n)).2 := rfl
  have hstate : run.stateAt (n + 1) = ((run.stateAt n).step run.toDeployed (run.actions n)).1 := rfl
  rw [h] at hevent hstate
  simp only [Network.step, Network.deliver, hflight, hraw] at hevent hstate
  refine ⟨⟨_, hevent⟩, fun j hj => ?_⟩
  rw [Run.wireAt, hstate]
  exact Function.update_of_ne hj _ _

/-- An alert is received when a message is delivered. -/
theorem deliver_of_received {alert : AlertEvent} {now : ℤ} {threat : Option CorrelatedThreat}
    (h : run.eventAt n = .received i alert now threat) :
    ∃ nowSec, run.actions n = .deliver i nowSec now := by
  change ((run.stateAt n).step run.toDeployed (run.actions n)).2 = _ at h
  cases hact : run.actions n with
  | agent j action =>
    rw [hact] at h
    dsimp only [Network.step] at h
    split at h <;> cases h
  | deliver j nowSec time =>
    rw [hact] at h
    dsimp only [Network.step, Network.deliver] at h
    split at h
    · cases h
    · split at h
      · cases h
      · injection h with hi _ ht _
        exact ⟨nowSec, by rw [hi, ht]⟩
  | _ =>
    rw [hact] at h
    cases h

/-- Alerts are raised when a process takes a step, and are what it gets then. -/
theorem agent_of_raised {alerts : List AlertEvent} (h : run.eventAt n = .raised i alerts) :
    ∃ action, run.actions n = .agent i action ∧
      alerts = (run.agentAt n i).raises run.lib (run.site i) action := by
  change ((run.stateAt n).step run.toDeployed (run.actions n)).2 = _ at h
  cases hact : run.actions n with
  | agent j action =>
    rw [hact] at h
    dsimp only [Network.step] at h
    split at h
    · cases h
    · injection h with hi halerts
      subst hi
      exact ⟨action, rfl, halerts.symm⟩
  | deliver j nowSec now =>
    rw [hact] at h
    dsimp only [Network.step, Network.deliver] at h
    split at h
    · cases h
    · split at h <;> cases h
  | _ =>
    rw [hact] at h
    cases h

end moves

section accounts

variable {ι : Type*} [DecidableEq ι]

/-- What holds of processes and connections in every state. -/
structure Consistent (d : Deployed ι) (s : Network ι) : Prop where
  /-- Each process keeps its accounts. -/
  sound : ∀ i, Sound d.lib (d.site i) (s.agents i)
  /-- Each connection keeps its order. -/
  ordered : ∀ i, (s.wires i).Ordered
  /-- What a publisher has sent is what its connection took. -/
  joined : ∀ i, (s.wires i).sent = (s.agents i).publisher.shipped

variable {d : Deployed ι} {s : Network ι}

omit [DecidableEq ι] in
theorem consistent_init (d : Deployed ι) : Consistent d (.init d) where
  sound := fun i => sound_init (d.site i)
  ordered := fun _ => Channel.ordered_empty
  joined := fun _ => rfl

/-- A change of one connection that leaves alone what it took. -/
theorem Consistent.wire (h : Consistent d s) (i : ι) {c : Channel Bytes} (hordered : c.Ordered)
    (hsent : c.sent = (s.wires i).sent) :
    Consistent d { s with wires := Function.update s.wires i c } := by
  refine ⟨h.sound, fun j => ?_, fun j => ?_⟩
  all_goals
    dsimp only
    by_cases hj : j = i
  · rw [hj, Function.update_self]
    exact hordered
  · rw [Function.update_of_ne hj]
    exact h.ordered j
  · rw [hj, Function.update_self, hsent]
    exact h.joined i
  · rw [Function.update_of_ne hj]
    exact h.joined j

/-- A step of a process and its connection. -/
theorem Consistent.stepAgent (h : Consistent d s) (i : ι) (action : AgentProcesses.Action) :
    Consistent d (s.stepAgent d i action) := by
  refine ⟨fun j => ?_, fun j => ?_, fun j => ?_⟩
  all_goals
    dsimp only [Network.stepAgent]
    by_cases hj : j = i
  · rw [hj, Function.update_self]
    exact (h.sound i).step action
  · rw [Function.update_of_ne hj]
    exact h.sound j
  · rw [hj, Function.update_self]
    exact (h.ordered i).put _
  · rw [Function.update_of_ne hj]
    exact h.ordered j
  · rw [hj, Function.update_self, Function.update_self, shipped_step, ← h.joined i]
    cases (s.agents i).handsOver action with
    | none => exact (List.append_nil _).symm
    | some json => rfl
  · rw [Function.update_of_ne hj, Function.update_of_ne hj]
    exact h.joined j

/-- A heartbeat at most ends its process. -/
theorem Consistent.beat (h : Consistent d s) (i : ι) (timestamp : ℤ) :
    Consistent d (s.beat d i timestamp) := by
  unfold Network.beat
  split
  · exact h
  · split
    · refine ⟨fun j => ?_, h.ordered, fun j => ?_⟩
      all_goals
        dsimp only
        by_cases hj : j = i
      · rw [hj, Function.update_self]
        exact (h.sound i).frame rfl (h.sound i).served rfl rfl (nomatch ·) rfl rfl ⟨rfl, rfl, rfl⟩
      · rw [Function.update_of_ne hj]
        exact h.sound j
      · rw [hj, Function.update_self]
        exact h.joined i
      · rw [Function.update_of_ne hj]
        exact h.joined j
    · exact ⟨h.sound, h.ordered, h.joined⟩

theorem Consistent.deliver (h : Consistent d s) (i : ι) (nowSec now : ℤ) :
    Consistent d (s.deliver d i nowSec now).1 := by
  have htaken := h.wire i (h.ordered i).take (Channel.sent_take _)
  unfold Network.deliver
  split
  · exact h
  · dsimp only
    split
    · exact htaken
    · exact ⟨htaken.sound, htaken.ordered, htaken.joined⟩

/-- Every step keeps processes and connections consistent. -/
theorem Consistent.step (h : Consistent d s) (action : Action ι) :
    Consistent d (s.step d action).1 := by
  cases action with
  | agent i action => exact h.stepAgent i action
  | lose i k => exact h.wire i ((h.ordered i).lose k) (Channel.sent_lose _ k)
  | deliver i nowSec now => exact h.deliver i nowSec now
  | beat i timestamp => exact h.beat i timestamp
  | loseBeat i k => exact ⟨h.sound, h.ordered, h.joined⟩
  | deliverBeat i nowSec =>
    dsimp only [Network.step, Network.deliverBeat]
    split
    · exact h
    · split <;> exact ⟨h.sound, h.ordered, h.joined⟩
  | check nowSec => exact ⟨h.sound, h.ordered, h.joined⟩
  | restart => exact ⟨h.sound, h.ordered, h.joined⟩

/-- What a process raised grows by what its callbacks get in a step, and what
was accepted from it by what the coordinator accepts in a step. -/
theorem histories_step (s : Network ι) (action : Action ι) (i : ι) :
    ((s.step d action).1.agents i).raised = (s.agents i).raised ++ (s.step d action).2.raisedBy i ∧
      ((s.step d action).1.wires i).received.filterMap (AlertWire.deserialize d.lib.parse) =
        (s.wires i).received.filterMap (AlertWire.deserialize d.lib.parse) ++
          (s.step d action).2.receivedFrom i := by
  have hnone : ∀ alerts : List AlertEvent, alerts = alerts ++ [] := fun alerts =>
    (List.append_nil alerts).symm
  cases action with
  | agent j action =>
    dsimp only [Network.step, Network.stepAgent]
    have hraised := raised_step d.lib (d.site j) (s.agents j) action
    by_cases hi : i = j
    · rw [hi, Function.update_self, Function.update_self, hraised, Channel.received_put]
      split
      · next hr => rw [hr]; exact ⟨rfl, hnone _⟩
      · next alerts hr => exact ⟨by simp [Event.raisedBy], hnone _⟩
    · rw [Function.update_of_ne hi, Function.update_of_ne hi]
      split
      · exact ⟨hnone _, hnone _⟩
      · exact ⟨by simp [Event.raisedBy, hi], hnone _⟩
  | lose j k =>
    refine ⟨hnone _, ?_⟩
    dsimp only [Network.step]
    by_cases hi : i = j
    · rw [hi, Function.update_self, Channel.received_lose]
      exact hnone _
    · rw [Function.update_of_ne hi]
      exact hnone _
  | deliver j nowSec now =>
    dsimp only [Network.step, Network.deliver]
    split
    · exact ⟨hnone _, hnone _⟩
    · next raw rest hwire =>
      have hreceived : (Function.update s.wires j (s.wires j).take i).received =
          (s.wires i).received ++ if i = j then [raw] else [] := by
        by_cases hi : i = j
        · rw [hi, Function.update_self, Channel.received_take_cons hwire, if_pos rfl]
        · rw [Function.update_of_ne hi, if_neg hi, List.append_nil]
      split
      · next hraw =>
        refine ⟨hnone _, ?_⟩
        dsimp only [Event.receivedFrom]
        rw [hreceived, List.filterMap_append]
        split <;> simp [hraw]
      · next alert hraw =>
        refine ⟨hnone _, ?_⟩
        dsimp only [Event.receivedFrom]
        rw [hreceived, List.filterMap_append]
        split <;> simp [hraw]
  | beat j timestamp =>
    dsimp only [Network.step, Network.beat]
    split
    · exact ⟨hnone _, hnone _⟩
    · split
      · refine ⟨?_, hnone _⟩
        by_cases hi : i = j
        · dsimp only
          rw [hi, Function.update_self]
          exact hnone _
        · dsimp only
          rw [Function.update_of_ne hi]
          exact hnone _
      · exact ⟨hnone _, hnone _⟩
  | loseBeat j k => exact ⟨hnone _, hnone _⟩
  | deliverBeat j nowSec =>
    dsimp only [Network.step, Network.deliverBeat]
    split
    · exact ⟨hnone _, hnone _⟩
    · split <;> exact ⟨hnone _, hnone _⟩
  | check nowSec => exact ⟨hnone _, hnone _⟩
  | restart => exact ⟨hnone _, hnone _⟩

end accounts

section deliveries

variable {ι : Type*} [DecidableEq ι] (run : Run ι)

theorem consistent_stateAt (n : ℕ) : Consistent run.toDeployed (run.stateAt n) :=
  Machine.invariant_of_step (consistent_init run.toDeployed) (fun _ action h => h.step action) n

/-- The histories of processes and connections are those of the run. -/
theorem histories (n : ℕ) (i : ι) : (run.agentAt n i).raised = run.raisedBefore n i ∧
    (run.wireAt n i).received.filterMap (AlertWire.deserialize run.lib.parse) =
      run.receivedBefore n i := by
  induction n with
  | zero => exact ⟨rfl, rfl⟩
  | succ n ih =>
    obtain ⟨hraised, hreceived⟩ := histories_step (d := run.toDeployed) (run.stateAt n)
      (run.actions n) i
    rw [Run.raisedBefore, Run.receivedBefore, List.range_succ, List.flatMap_append,
      List.flatMap_append, List.flatMap_singleton, List.flatMap_singleton]
    exact ⟨hraised.trans (congrArg (· ++ _) ih.1), hreceived.trans (congrArg (· ++ _) ih.2)⟩

/-- Where the alerts of a process are that the coordinator does not have. -/
structure Whereabouts (n : ℕ) (i : ι) (gone : ℕ) : Prop where
  /-- A message that `zmq_send` did not take ends the send loop. -/
  once : gone ≤ 1 ∧ ((run.agentAt n i).publisher.sender.alive = true → gone = 0)
  /-- Each alert was received, is on its way or is lost in one counted way. -/
  balance : (run.raisedBefore n i).length = (run.receivedBefore n i).length +
    (run.wireAt n i).inFlight.length + (run.wireAt n i).lost + gone +
    (run.agentAt n i).publisher.taken.length + (run.agentAt n i).publisher.queue.length +
    (run.agentAt n i).publisher.refused + (run.agentAt n i).unpublished +
    (run.agentAt n i).pending.length

/-- Every message that a connection handed over is the text of a published
alert. -/
theorem received_published (n : ℕ) (i : ι) : ∃ published,
    run.raisedBefore n i =
        published ++ (run.agentAt n i).pending.map (stampAlert (run.site i).nodeId) ∧
      (run.wireAt n i).received.Sublist (published.filterMap (serialize run.lib.dump)) ∧
      ((run.agentAt n i).crashed = false → published.length =
        (run.agentAt n i).publisher.accepted.length + (run.agentAt n i).publisher.refused +
          (run.agentAt n i).unpublished) := by
  have hconsistent := consistent_stateAt run n
  have hsound : Sound run.lib (run.site i) (run.agentAt n i) := hconsistent.sound i
  have hordered : (run.wireAt n i).Ordered := hconsistent.ordered i
  have hjoined : (run.wireAt n i).sent = (run.agentAt n i).publisher.shipped :=
    hconsistent.joined i
  obtain ⟨published, hsplit, haccepted, hlength⟩ := hsound.history
  obtain ⟨gone, hfifo, -⟩ := hsound.served.fifo
  have hshipped : (run.agentAt n i).publisher.shipped.Sublist
      (published.filterMap (serialize run.lib.dump)) := by
    refine .trans ?_ haccepted
    rw [hfifo, List.append_assoc, List.append_assoc]
    exact List.sublist_append_left _ _
  exact ⟨published, (histories run n i).1 ▸ hsplit,
    (hjoined ▸ hordered.received_sublist).trans hshipped, hlength⟩

variable {run}

/-- What callbacks got can be sent. -/
theorem sendable_raised (hclock : run.Clocked) (n : ℕ) (i : ι) :
    ∀ alert ∈ run.raisedBefore n i, Sendable alert := by
  intro alert ha
  have hscore : alert.anomalyScore.WellFormed := by
    refine (consistent_stateAt run n).sound i |>.scores alert ?_
    exact (histories run n i).1 ▸ ha
  obtain ⟨k, -, hraised⟩ := List.mem_flatMap.mp ha
  cases hevent : run.eventAt k with
  | quiet | received =>
    rw [hevent] at hraised
    cases hraised
  | raised j alerts =>
    rw [hevent, Event.raisedBy] at hraised
    split at hraised
    · obtain ⟨action, hact, rfl⟩ := agent_of_raised hevent
      have hstep := hclock k
      rw [hact] at hstep
      exact ⟨hscore, isInt64_raises _ _ _ hstep hraised⟩
    · cases hraised

/-- What the coordinator accepts from a process is, in order, among what the
process raised. -/
theorem received_sublist (hlib : Sane run.lib) (hclock : run.Clocked) (n : ℕ) (i : ι) :
    (run.receivedBefore n i).Sublist ((run.raisedBefore n i).map asReceived) := by
  obtain ⟨published, hsplit, hon, -⟩ := received_published run n i
  have hsendable : ∀ alert ∈ published, Sendable alert := fun alert ha =>
    sendable_raised hclock n i alert (hsplit ▸ List.mem_append_left _ ha)
  rw [← (histories run n i).2, hsplit, List.map_append]
  exact ((hon.filterMap _).trans (hlib.filterMap_deserialize hsendable).1).trans
    (List.sublist_append_left _ _)

/-- Every message that arrives is accepted. -/
theorem length_receivedBefore (hlib : Sane run.lib) (hclock : run.Clocked) (n : ℕ) (i : ι) :
    (run.receivedBefore n i).length = (run.wireAt n i).received.length := by
  obtain ⟨published, hsplit, hon, -⟩ := received_published run n i
  rw [← (histories run n i).2]
  refine List.filterMap_length_eq_length.mpr fun raw hraw => ?_
  obtain ⟨alert, ha, htext⟩ := List.mem_filterMap.mp (hon.subset hraw)
  have hsendable := sendable_raised hclock n i alert (hsplit ▸ List.mem_append_left _ ha)
  rw [hlib.deserialize hsendable htext, Option.isSome_some]

variable (run)

/-- What the coordinator accepts from a process is, in order, among what the
process raised. Unless an exception has ended the process, the difference is
on its way, or lost on the connection, at the one failed `zmq_send`, at a full
queue or without a publisher. -/
theorem received_in_order (hlib : Sane run.lib) (hclock : run.Clocked) (n : ℕ) (i : ι) :
    (run.receivedBefore n i).Sublist ((run.raisedBefore n i).map asReceived) ∧
      ((run.agentAt n i).crashed = false → ∃ gone, Whereabouts run n i gone) := by
  refine ⟨received_sublist hlib hclock n i, fun hup => ?_⟩
  have hconsistent := consistent_stateAt run n
  obtain ⟨published, hsplit, -, hlength⟩ := received_published run n i
  have hsound : Sound run.lib (run.site i) (run.agentAt n i) := hconsistent.sound i
  have hordered : (run.wireAt n i).Ordered := hconsistent.ordered i
  have hjoined : (run.wireAt n i).sent = (run.agentAt n i).publisher.shipped :=
    hconsistent.joined i
  obtain ⟨gone, hfifo, hone, halive, -⟩ := hsound.served.fifo
  refine ⟨gone.length, ⟨hone, fun ha => by rw [halive ha, List.length_nil]⟩, ?_⟩
  have hbalance := hordered.balance
  have htotal := congrArg List.length hfifo
  have hpublished := hlength hup
  have hsum := congrArg List.length hsplit
  have hkept := length_receivedBefore hlib hclock n i
  rw [hjoined] at hbalance
  simp only [List.length_append, List.length_map] at htotal hsum
  omega

end deliveries

end Dlads.DistributedRuns
